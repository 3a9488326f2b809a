import ListRequest.Parameters.Reader

/-! # Parameter names from a configuration file

A configuration file is read as UTF-8 text. What the system says about a file that cannot be read is
passed on with the path, and so is what a JSON library says about a text that is no configuration.
-/

namespace ListRequest
set_option autoImplicit false

inductive FileFault where
  /-- The system refuses to read it, with its words and its code for the reason. -/
  | system (words : String) (code : Nat)
  /-- Reading fails for a reason without a code. -/
  | other (words : String)
  | notUtf8
  deriving DecidableEq, Inhabited

namespace FileFault

def missing : FileFault := system "No such file or directory" 2

def directory : FileFault := system "Is a directory" 21

def message : FileFault → String
  | system words code => s!"{words} (os error {code})"
  | other words => words
  | notUtf8 => "stream did not contain valid UTF-8"

end FileFault

/-- Why a configuration file gives no parameter names. -/
inductive LoadError where
  | unreadable (path : String) (cause : FileFault)
  /-- The file holds a text with a fault. -/
  | invalid (path text : String) (cause : Json.Fault)
  deriving DecidableEq, Inhabited

/-- The fault as it is reported; `explain` gives the words for a fault of a configuration text. -/
def LoadError.message (explain : String → Json.Fault → String) : LoadError → String
  | unreadable path cause => s!"无法读取配置文件 {path}: {cause.message}"
  | invalid path text cause => s!"无法解析JSON配置文件 {path}: {explain text cause}"

/-- The text of a file that holds these bytes. -/
def decodeFile (bytes : ByteArray) : Except FileFault String :=
  match String.fromUTF8? bytes with
  | some text => .ok text
  | none => .error .notUtf8

/-- The parameter names in a file, given what reading the file yields. -/
def Parameters.ofFile (path : String) (content : Except FileFault ByteArray) :
    Except LoadError Parameters :=
  match content.bind decodeFile with
  | .error cause => .error (.unreadable path cause)
  | .ok text => (ofText text).mapError (.invalid path text)

end ListRequest
