import DeclBundle.Shell.Utility.Choice
import DeclBundle.Shell.Utility.Editing
import DeclBundle.Shell.Utility.Listing
import DeclBundle.Shell.Utility.Search
import DeclBundle.Shell.Utility.Sort
import DeclBundle.Shell.Utility.Starting
import DeclBundle.Shell.Utility.Testing
import DeclBundle.Shell.Utility.Values

namespace DeclBundle.Shell.Utility

open Work

def table (start : Start) : List (String × Utility) :=
  [("true", fun _ => return), ("false", fun _ => settle 1), ("echo", echo), ("printf", printf),
    ("test", test false), ("[", test true), ("mkdir", mkdir), ("rmdir", rmdir), ("rm", rm),
    ("cp", cp), ("mv", mv), ("ln", ln), ("touch", touch), ("chmod", chmod), ("ls", ls),
    ("find", find start), ("cat", cat), ("head", head), ("tail", tail), ("wc", wc),
    ("sort", sort), ("uniq", uniq), ("tr", tr), ("cut", cut), ("tee", tee), ("rev", rev),
    ("tac", tac), ("nl", nl), ("paste", paste), ("seq", seq), ("sleep", sleep),
    ("printenv", printenv), ("env", env start), ("xargs", xargs start), ("nohup", nohup start),
    ("timeout", timeout start), ("nice", nice start), ("which", which), ("dirname", dirname),
    ("basename", basename), ("pwd", pwd), ("readlink", readlink), ("realpath", realpath),
    ("grep", grep []), ("egrep", grep ['E']), ("fgrep", grep ['F']), ("expr", expr),
    ("sed", Editing.sed), ("sync", fun _ => return), ("date", fun _ => sayLine ""),
    ("whoami", fun _ => sayLine "root"), ("uname", fun _ => sayLine "Linux")]

def shellNames : List String := ["sh", "dash"]

def programNames : List String :=
  shellNames ++ (table fun _ => return .error (.os .notFound)).map Prod.fst

def directories : List String :=
  ["/dev", "/etc", "/home", "/root", "/tmp", "/usr/bin", "/usr/local/bin", "/usr/local/sbin",
    "/usr/sbin", "/var/tmp"]

def installed : FileSystem :=
  let made := directories.foldl (fun fs d => (fs.makeDirectories ⟨d⟩).1) FileSystem.empty
  let write (fs : FileSystem) (path : Path) (content : ByteArray) (mode : Nat) : FileSystem :=
    let written := (fs.write path content).toOption.getD fs
    (written.setMode path mode).toOption.getD written
  let made := programNames.foldl (fun fs name =>
    write fs ⟨"/usr/bin/" ++ name⟩ (Program.image name) 0o755) made
  let made := write made ⟨"/dev/null"⟩ .empty 0o666
  let link (fs : FileSystem) (path target : String) : FileSystem :=
    (fs.makeLink ⟨path⟩ target).toOption.getD fs
  link (link made "/bin" "usr/bin") "/sbin" "usr/sbin"

end DeclBundle.Shell.Utility
