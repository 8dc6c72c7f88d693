import TypedTables.Files.Path
import TypedTables.OrderedMap
/-!
# Home folders

A relative path whose first name starts with `~` is meant from a home folder: from that of the
user if the name is `~` alone, from that of an account if the account's name follows.

Results:
* `inHome?_of_root`: absolute paths are meant as they are.
-/
namespace TypedTables

/-- The accounts that a system comes with, and their home folders. -/
def systemAccounts : List (String × String) :=
  [("root", "/root"), ("daemon", "/usr/sbin"), ("bin", "/bin"), ("sys", "/dev"),
   ("sync", "/bin"), ("games", "/usr/games"), ("man", "/var/cache/man"),
   ("lp", "/var/spool/lpd"), ("mail", "/var/mail"), ("news", "/var/spool/news"),
   ("uucp", "/var/spool/uucp"), ("proxy", "/bin"), ("www-data", "/var/www"),
   ("backup", "/var/backups"), ("list", "/var/list"), ("irc", "/run/ircd"),
   ("_apt", "/nonexistent"), ("nobody", "/nonexistent")]

/-- The home folder of an account, or of the user if the name is empty. The user's is the value
of `HOME`, which must be no `~` path itself; an empty one is the top of the file system. -/
def home? (environment : OrderedMap String String) (account : String) : Option Path :=
  if account ≠ "" then (systemAccounts.lookup account).map Path.ofText
  else
    let text := (environment.get? "HOME").getD "/root"
    if text.startsWith "~" then none
    else if text.all (· == '/') then some (.ofText "/")
    else some (.ofText text)

/-- What a path is meant to be; none if it starts in a home folder that is not known. -/
def Path.inHome? (environment : OrderedMap String String) (p : Path) : Option Path :=
  match p.names with
  | [] => some p
  | first :: rest =>
    if p.root = "" ∧ first.startsWith "~" then
      (home? environment (first.drop 1).toString).map fun home =>
        { home with names := home.names ++ rest }
    else some p

theorem Path.inHome?_of_root {p : Path} (environment : OrderedMap String String)
    (h : p.root ≠ "") : p.inHome? environment = some p := by
  unfold Path.inHome?
  split <;> simp [h]

end TypedTables
