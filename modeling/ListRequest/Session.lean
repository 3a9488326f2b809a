import ListRequest.Json.Value
import ListRequest.Json.Writer
import ListRequest.Parameters.File
import ListRequest.Request.Basic
import ListRequest.Text.Basic
import ListRequest.Text.Correction

/-! # Line sessions

A session greets, then answers request after request, one a line, until it is told to quit or meets
a line that it cannot read. Backspaces in a line erase what stands before them.

* `Session.Explanations`: the words for the faults of JSON texts.
* `Session.greeting`: what is printed first, depending on how the configuration was loaded.
* `Session.answer`: the answer to one line; `Session.turn`: what a line does to the session.
* `Session.run`: the whole output and the exit code for a list of lines.
-/

namespace ListRequest.Session
set_option autoImplicit false

/-- More containers inside each other are refused in a request. -/
def maxDepth : Nat := 127

/-- What a JSON library says of a text in which it finds a fault. It may tell what was expected there,
and where. A text may be refused for another reason as a configuration than as a request. -/
structure Explanations where
  /-- The words for a line that is no JSON text. -/
  line : String → Json.Fault → String
  /-- The words for a text that is no configuration. -/
  configuration : String → Json.Fault → String

/-! ## Greeting -/

/-- The configuration that was asked for, and what loading it gave. -/
structure Configuration where
  path : String
  outcome : Except LoadError Parameters

/-- The parameter names in force: the default ones unless a configuration could be loaded. -/
def names : Option Configuration → Parameters
  | some ⟨_, .ok names⟩ => names
  | _ => {}

def report (explain : Explanations) : Option Configuration → String
  | none => ""
  | some ⟨path, .ok _⟩ => s!"✅ 成功从JSON配置文件加载参数名: {path}\n"
  | some ⟨_, .error e⟩ => s!"⚠️ 无法加载JSON配置文件 ({e.message explain.configuration}), 使用默认配置\n"

/-- What is said before the first line is read. -/
def introduction (names : Parameters) : String :=
  "--- Query Shaper: 请求参数解析 ---\n" ++
  s!"参数名: fields={names.fields}, filters={names.filters}, sort={names.sort}\n" ++
  "每行输入一个JSON对象, 例如: \x7b\"" ++ names.fields ++ "\": \"id,posts(id,title)\", \"" ++
  names.sort ++ "\": \"id.desc\"\x7d\n" ++
  "输入 :quit 退出\n\n"

/-- All that is printed before the first line is read. -/
def greeting (explain : Explanations) (configuration : Option Configuration) : String :=
  report explain configuration ++ introduction (names configuration)

/-! ## Answers -/

def refusal (reason : String) : String := s!"✗ 解析失败: {reason}\n"

def answer (explain : Explanations) (names : Parameters) (line : String) : String :=
  match Json.parse (some maxDepth) line with
  | .error fault => refusal s!"输入必须是JSON对象: {explain.line line fault}"
  | .ok (.obj members) =>
    match names.parse members with
    | .error e => refusal e.message
    | .ok request => request.toJson.pretty ++ "\n"
  | .ok _ => refusal "输入必须是JSON对象"

inductive Turn where
  /-- The session prints something and goes on. -/
  | reply (text : String)
  | quit
  /-- The session ends because the line is no text. -/
  | unreadable
  /-- The session ends because a backspace in the line cuts a character apart. -/
  | torn
  deriving DecidableEq, Inhabited

/-- The turn for a line without backspaces. -/
def textTurn (explain : Explanations) (names : Parameters) (line : String) : Turn :=
  let line := Text.trim line
  if line = "" then .reply ""
  else if line = ":quit" then .quit
  else .reply (answer explain names line)

/-- The turn for the bytes of one line. -/
def turn (explain : Explanations) (names : Parameters) (line : List UInt8) : Turn :=
  match String.fromUTF8? ⟨line.toArray⟩ with
  | none => .unreadable
  | some text =>
    match Text.correct? text with
    | none => .torn
    | some text => textTurn explain names text

/-! ## Whole sessions -/

/-- The lines of an input: what stands before each newline, and what stands after the last one
unless that is nothing. -/
def lines (input : List UInt8) : List (List UInt8) :=
  let parts := input.splitOn 10
  if parts.getLast? = some [] then parts.dropLast else parts

/-- What a session has printed, and its exit code. -/
structure Transcript where
  output : String
  exitCode : Nat
  deriving DecidableEq, Inhabited

/-- Goes on with a session that has printed `output`. -/
def resume (explain : Explanations) (names : Parameters) (output : String) :
    List (List UInt8) → Transcript
  | [] => ⟨output, 0⟩
  | line :: rest =>
    match turn explain names line with
    | .reply text => resume explain names (output ++ text) rest
    | .quit => ⟨output, 0⟩
    | .unreadable => ⟨output, 1⟩
    | .torn => ⟨output, 101⟩

def run (explain : Explanations) (configuration : Option Configuration)
    (input : List (List UInt8)) : Transcript :=
  resume explain (names configuration) (greeting explain configuration) input

end ListRequest.Session
