import Mathlib.Data.List.DropRight
import Mathlib.Data.List.Infix
import Mathlib.Data.List.Sort
import OnestiLock.Errors

/-! What a release is built from (`scripts/release_publish.py`): the candidate,
and the ZIP of the component's files at its commit. -/

namespace OnestiLock.ReleasePublish

def component : String := "custom_components/onesti_lock"
def assetName : String := "onesti_lock.zip"

/-- Component paths left out of the ZIP; a name ending in a slash is a directory. -/
def zipExclude : List String := ["ble/", "bluetooth.py"]

def signerWorkflow : String := ".github/workflows/release.yml"
def trialVersion : String := "0.0.0"
def firstZipVersion : List Int := [1, 4, 0]

def zipPermissions : String → Option Nat
  | "100644" => some 0o644
  | "100755" => some 0o755
  | _ => none

/-- What ends the script: `Failure`, `Stop`, or any other exception by its name. -/
inductive Halt
  | failure (message : String)
  | stop (message : String)
  | crash (name : String)
  deriving DecidableEq, Repr

structure Candidate where
  repo : String
  sha : String
  version : String
  deriving DecidableEq, Repr

def Candidate.tag (candidate : Candidate) : String := "v" ++ candidate.version

def short (sha : String) : String := String.ofList (sha.toList.take 12)

/-- A packed file: its name in the ZIP, its permissions and its content. -/
structure Member where
  name : String
  permissions : Nat
  content : Bytes
  deriving DecidableEq, Repr

/-- A `from … import …` of a module, with the number of its leading dots. -/
structure ImportFrom where
  level : Nat
  module : Option String
  names : List String
  line : Nat
  deriving DecidableEq, Repr

/-- Python's own libraries, as far as the script computes with them. -/
structure Libraries where
  /-- The hexadecimal sha256. -/
  sha256 : Bytes → String
  /-- `ast.parse` and `ast.walk`, or the text of the syntax error. -/
  importFroms : Bytes → Except String (List ImportFrom)
  /-- `zipfile`, writing with fixed metadata. -/
  archive : List Member → Bytes
  /-- `zipfile`, reading: the entries that are no directories, sorted by name. -/
  unpack : Bytes → Except String (List (String × Bytes))
  /-- The digits a regular expression and `int` accept. -/
  decimal : Char → Option Nat
  decimal_ascii : ∀ c, c.isDigit → decimal c = some (c.toNat - '0'.toNat)

/-- The local object database: what git prints, or its error text. -/
structure Git where
  text : List String → Except String String
  raw : List String → Except String Bytes

def gitOutput {α : Type} (argv : List String) : Except String α → Except Halt α
  | .ok output => .ok output
  | .error stderr => .error (.failure ("git " ++ " ".intercalate argv ++ " failed: " ++ stderr))

namespace Git

variable (git : Git)

def textOf (argv : List String) : Except Halt String := gitOutput argv (git.text argv)

def rawOf (argv : List String) : Except Halt Bytes := gitOutput argv (git.raw argv)

def blob (sha : String) : Except Halt Bytes := git.rawOf ["cat-file", "blob", sha]

end Git

def isExcluded (name : String) : Bool :=
  zipExclude.any fun entry =>
    name = entry || ("/".toList.isSuffixOf entry.toList && entry.toList.isPrefixOf name.toList)

def removeSuffix (suffix text : List Char) : List Char :=
  if suffix.isSuffixOf text then text.take (text.length - suffix.length) else text

/-- The part of a dotted or slashed name before its first separator. -/
def head (separator : Char) (text : List Char) : String := String.ofList (text.takeWhile (· ≠ separator))

def excludedModules : List String :=
  zipExclude.map fun entry => head '/' (removeSuffix ".py".toList (entry.toList.rdropWhile (· = '/')))

/-- A tracked file: its git mode, its blob, and its name inside the ZIP. -/
structure Tracked where
  mode : String
  blob : String
  name : String
  deriving DecidableEq, Repr

def reaches (node : ImportFrom) : Bool :=
  node.level ≠ 0 &&
    (head '.' (node.module.getD "").toList :: node.names).any (fun name => name ∈ excludedModules)

def fileOffenders (lib : Libraries) (git : Git) (file : Tracked) : Except Halt (List String) :=
  if ".py".toList.isSuffixOf file.name.toList then do
    let source ← git.blob file.blob
    match lib.importFroms source with
    | .error err => .error (.failure (file.name ++ " does not parse as Python: " ++ err))
    | .ok nodes => .ok ((nodes.filter reaches).map fun node => file.name ++ ":" ++ toString node.line)
  else .ok []

def packedImportsExcluded (lib : Libraries) (git : Git) (files : List Tracked) : Except Halt (List String) := do
  let offenders ← files.mapM (fileOffenders lib git)
  return offenders.flatten.insertionSort (· ≤ ·)

/-- One entry of `git ls-tree -z`: mode, kind and blob, a tab, the path. -/
def componentFile (sha : String) (entry : List Char) : Except Halt (Option Tracked) :=
  let path := (entry.dropWhile (· ≠ '\t')).drop 1
  match (((entry.takeWhile (· ≠ '\t')).splitOn ' ').filter (· ≠ [])).map String.ofList with
  | [mode, kind, blob] =>
    if kind ≠ "blob" then
      .error (.failure (String.ofList path ++ " at " ++ sha ++ " is a " ++ kind ++ ", not a regular file. " ++
        "Symlinks and submodules do not belong in a HACS ZIP."))
    else if (zipPermissions mode).isNone then
      .error (.failure (String.ofList path ++ " has git mode " ++ mode ++
        ", which cannot be packed deterministically"))
    else
      let name := String.ofList (path.drop (component.length + 1))
      .ok (if isExcluded name then none else some ⟨mode, blob, name⟩)
  | _ => .error (.crash "ValueError")

def componentFiles (git : Git) (sha : String) : Except Halt (List Tracked) := do
  let raw ← git.textOf ["ls-tree", "-r", "-z", sha, "--", component]
  let files ← ((raw.toList.splitOn '\x00').filter (· ≠ [])).mapM (componentFile sha)
  if (files.filterMap id).isEmpty then
    .error (.failure (component ++ " has no tracked files at " ++ sha))
  else return (files.filterMap id).insertionSort (fun a b => a.name ≤ b.name)

def member (git : Git) (file : Tracked) : Except Halt Member := do
  let content ← git.blob file.blob
  match zipPermissions file.mode with
  | some permissions => return ⟨file.name, permissions, content⟩
  | none => .error (.crash "KeyError")

/-- The bytes `build_zip` writes for a commit. -/
def build (lib : Libraries) (git : Git) (sha : String) : Except Halt Bytes := do
  let files ← componentFiles git sha
  let reaching ← packedImportsExcluded lib git files
  if reaching ≠ [] then
    .error (.failure ("the ZIP leaves out " ++ ", ".intercalate zipExclude ++ ", but " ++
      ", ".intercalate reaching ++ " imports it. Drop the path from ZIP_EXCLUDE, or the import."))
  else
    let members ← files.mapM (member git)
    return lib.archive members

section Versions

def isHex (c : Char) : Bool := c.isDigit || ('a' ≤ c && c ≤ 'f')

/-- Without the line break that `$` lets stand at the end. -/
def chomp (text : List Char) : List Char := removeSuffix ['\n'] text

/-- `SHA_RE`. -/
def isFullSha (text : String) : Bool :=
  (chomp text.toList).length = 40 && (chomp text.toList).all isHex

variable (lib : Libraries)

def isDecimal (text : List Char) : Bool := text ≠ [] && text.all (fun c => (lib.decimal c).isSome)

/-- `VERSION_RE`. -/
def isVersion (text : String) : Bool :=
  match (chomp text.toList).splitOn '.' with
  | [major, minor, patch] => isDecimal lib major && isDecimal lib minor && isDecimal lib patch
  | _ => false

def digitsValue (text : List Char) : Int := text.foldl (fun n c => 10 * n + ((lib.decimal c).getD 0 : Nat)) 0

/-- `int` of a text: digits, perhaps grouped by underscores, with a sign and
spaces around them. -/
def int (text : List Char) : Except Halt Int :=
  let bare := (text.dropWhile Char.isWhitespace).rdropWhile Char.isWhitespace
  let signed := match bare with
    | '-' :: rest => (-1, rest)
    | '+' :: rest => (1, rest)
    | _ => (1, bare)
  if (signed.2.splitOn '_').all (isDecimal lib) then
    .ok (signed.1 * digitsValue lib (signed.2.filter (· ≠ '_')))
  else .error (.crash "ValueError")

def versionNumbers (version : String) : Except Halt (List Int) := (version.toList.splitOn '.').mapM (int lib)

end Versions

end OnestiLock.ReleasePublish
