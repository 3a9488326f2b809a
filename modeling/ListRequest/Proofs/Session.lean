import ListRequest.Proofs.Request.Line
import ListRequest.Proofs.Text.Correction
import ListRequest.Session
import Mathlib.Data.List.Forall2

/-! # Sessions line by line

A session answers its lines one by one. What it prints for a line depends on the text of that line
and on the parameter names in force, and on no other line. It ends with its input, at a line that asks
to quit, or at a line that is no text, and has then printed its greeting and a block for each line
before. A configuration that cannot be loaded is reported first, and after that the session is as
without a configuration. What a JSON library says of a line that it refuses may be anything that is
itself on one line.

* `HasText`: the text of a line, without what its backspaces erase and without blanks at its ends.
* `block`: what is printed for a text; `Replies`: what this may be.
* `Ends`: where a session ends, and its exit code.
* `resume_append`, `resume_of_ends`: the lines before the end, and the end.
* `Unloadable`: the contents of a configuration file that give no parameter names.
-/

namespace ListRequest
set_option autoImplicit false

/-! ## Faults on one line -/

theorem newline_not_mem_append {s t : String} (hs : '\n' ∉ s.toList) (ht : '\n' ∉ t.toList) :
    '\n' ∉ (s ++ t).toList := by
  rw [String.toList_append, List.mem_append, not_or]
  exact ⟨hs, ht⟩

theorem Json.Kind.newline_not_mem_text (k : Kind) : '\n' ∉ k.text.toList := by
  cases k <;> decide

theorem Field.Imbalance.newline_not_mem_text (kind : Imbalance) : '\n' ∉ kind.text.toList := by
  cases kind <;> decide

theorem Field.GroupError.newline_not_mem_message (e : GroupError) : '\n' ∉ e.message.toList := by
  have hdigits : ∀ n : Nat, '\n' ∉ n.repr.toList := not_mem_repr (by decide)
  cases e with
  | unbalanced offset kind =>
    have hplace := @newline_not_mem_append "括号不匹配: 位置 " _ (by decide) (hdigits offset)
    exact newline_not_mem_append (newline_not_mem_append hplace (by decide))
      kind.newline_not_mem_text
  | missingName offset =>
    exact newline_not_mem_append (newline_not_mem_append (by decide) (hdigits offset)) (by decide)

theorem RequestError.newline_not_mem_message (e : RequestError) : '\n' ∉ e.message.toList := by
  cases e with
  | fieldsKind found => exact newline_not_mem_append (by decide) found.newline_not_mem_text
  | selection cause => exact cause.newline_not_mem_message
  | filtersKind found => exact newline_not_mem_append (by decide) found.newline_not_mem_text
  | sortKind found => exact newline_not_mem_append (by decide) found.newline_not_mem_text

namespace Session

/-! ## Answers -/

section
variable (explain : Explanations) (names : Parameters)

/-- What is printed for a line with this text. -/
def block (text : String) : String := if text = "" then "" else answer explain names text

/-- What may be printed for a text: nothing for a blank one, the request that it holds, or else one
line that says why there is none. -/
inductive Replies : String → String → Prop where
  | blank : Replies "" ""
  | request {text : String} {members : List (String × Json)} {r : Request} :
      Json.parse (some maxDepth) text = .ok (.obj members) → names.parse members = .ok r →
      Replies text (r.toJson.pretty ++ "\n")
  | refused {text reason : String} :
      text ≠ "" →
      (∀ members r, Json.parse (some maxDepth) text = .ok (.obj members) →
        names.parse members ≠ .ok r) →
      '\n' ∉ reason.toList → Replies text ("✗ 解析失败: " ++ reason ++ "\n")

variable {names} in
theorem Replies.ne_empty {text printed : String} (h : Replies names text printed)
    (htext : text ≠ "") : printed ≠ "" := by
  intro hprinted
  cases h with
  | blank => exact htext rfl
  | request _ _ =>
    obtain ⟨-, hnewline⟩ := String.append_eq_empty_iff.mp hprinted
    exact absurd hnewline (by decide)
  | refused _ _ _ =>
    obtain ⟨-, hnewline⟩ := String.append_eq_empty_iff.mp hprinted
    exact absurd hnewline (by decide)

theorem replies_answer (hexplain : ∀ text fault, '\n' ∉ (explain.line text fault).toList) {text : String}
    (htext : text ≠ "") : Replies names text (answer explain names text) := by
  unfold answer
  split
  · next fault hparse =>
    refine .refused htext ?_ ?_
    · intro members r h
      rw [hparse] at h
      cases h
    · exact newline_not_mem_append (by decide) (hexplain text fault)
  · next members hparse =>
    split
    · next e hrequest =>
      refine .refused htext ?_ e.newline_not_mem_message
      intro members' r h
      rw [hparse] at h
      cases h
      rw [hrequest]
      exact nofun
    · next r hrequest => exact .request hparse hrequest
  · next value hother hparse =>
    refine .refused htext ?_ (by decide)
    intro members r h
    rw [hparse] at h
    cases h
    exact absurd rfl (hother members)

theorem replies_block (hexplain : ∀ text fault, '\n' ∉ (explain.line text fault).toList) (text : String) :
    Replies names text (block explain names text) := by
  unfold block
  split
  · next h =>
    rw [h]
    exact .blank
  · next h => exact replies_answer explain names hexplain h

end

/-! ## Lines -/

/-- The text of what is typed on a line: without what its backspaces erase, and without blanks at
its ends. -/
def textOf (raw : String) : String := Text.trim (Text.corrected raw)

/-- The line is UTF-8 for something typed with such a text. -/
def HasText (line : List UInt8) (text : String) : Prop :=
  ∃ raw, String.fromUTF8? ⟨line.toArray⟩ = some raw ∧ Text.Correctable raw ∧ textOf raw = text

/-- A session with these lines still to come ends here, with an exit code. -/
inductive Ends : List (List UInt8) → Nat → Prop where
  | input : Ends [] 0
  | quit {line : List UInt8} {rest : List (List UInt8)} :
      HasText line ":quit" → Ends (line :: rest) 0
  | notUtf8 {line : List UInt8} {rest : List (List UInt8)} :
      String.fromUTF8? ⟨line.toArray⟩ = none → Ends (line :: rest) 1

theorem textOf_of_not_mem {raw : String} (h : Text.backspace ∉ raw.toList) :
    textOf raw = Text.trim raw := by
  rw [textOf, Text.corrected_of_not_mem h]

section
variable {explain : Explanations} {names : Parameters} {line : List UInt8} {text : String}

theorem turn_of_hasText (h : HasText line text) :
    turn explain names line =
      if text = ":quit" then .quit else .reply (block explain names text) := by
  obtain ⟨raw, hraw, hcorrect, rfl⟩ := h
  have hturn : turn explain names line = textTurn explain names (Text.corrected raw) := by
    unfold turn
    rw [hraw]
    simp only [Text.correct?_eq_some hcorrect]
  rw [hturn]
  unfold textTurn block textOf
  generalize Text.trim (Text.corrected raw) = text
  by_cases hempty : text = ""
  · simp [hempty]
  · simp [hempty]

theorem turn_of_notUtf8 (h : String.fromUTF8? ⟨line.toArray⟩ = none) :
    turn explain names line = .unreadable := by
  unfold turn
  rw [h]

end

/-! ## Runs -/

section
variable (explain : Explanations) (names : Parameters)

/-- What has been printed before stays in front. -/
theorem resume_eq (output : String) (input : List (List UInt8)) :
    resume explain names output input =
      ⟨output ++ (resume explain names "" input).output, (resume explain names "" input).exitCode⟩ := by
  induction input generalizing output with
  | nil => simp [resume]
  | cons line rest ih =>
    rw [resume, resume]
    cases turn explain names line with
    | reply text =>
      have hafter := ih (output ++ text)
      have halone := ih text
      simp only [String.empty_append]
      rw [hafter, halone, String.append_assoc]
    | quit => simp
    | unreadable => simp
    | torn => simp

theorem resume_append {before : List (List UInt8)} {texts : List String}
    (h : List.Forall₂ HasText before texts) (hquit : ":quit" ∉ texts) (output : String)
    (rest : List (List UInt8)) :
    resume explain names output (before ++ rest) =
      resume explain names (output ++ String.join (texts.map (block explain names))) rest := by
  induction h generalizing output with
  | nil => simp
  | @cons line text before texts hline _ ih =>
    -- The line does not end the session, so that its block goes before those of the others.
    rw [List.mem_cons, not_or] at hquit
    have hturn : turn explain names line = .reply (block explain names text) := by
      rw [turn_of_hasText hline, if_neg (Ne.symm hquit.1)]
    have hrest := ih hquit.2 (output ++ block explain names text)
    rw [List.cons_append, resume, hturn, List.map_cons, String.join_cons, ← String.append_assoc]
    exact hrest

theorem resume_of_ends {rest : List (List UInt8)} {code : Nat} (h : Ends rest code)
    (output : String) : resume explain names output rest = ⟨output, code⟩ := by
  cases h with
  | input => rfl
  | quit hline => rw [resume, turn_of_hasText hline, if_pos rfl]
  | notUtf8 hline => rw [resume, turn_of_notUtf8 hline]

end

/-- The lines of a session up to its end all have texts, unless it comes upon a line where a backspace
takes away a cluster that is too long. -/
theorem exists_end (input : List (List UInt8)) :
    ∃ before texts rest, input = before ++ rest ∧ List.Forall₂ HasText before texts ∧
      ":quit" ∉ texts ∧ ((∃ code, Ends rest code) ∨ ∃ line after raw, rest = line :: after ∧
        String.fromUTF8? ⟨line.toArray⟩ = some raw ∧ ¬ Text.Correctable raw) := by
  induction input with
  | nil => exact ⟨[], [], [], rfl, .nil, List.not_mem_nil, .inl ⟨0, .input⟩⟩
  | cons line input ih =>
    cases hraw : String.fromUTF8? ⟨line.toArray⟩ with
    | none =>
      exact ⟨[], [], line :: input, rfl, .nil, List.not_mem_nil, .inl ⟨1, .notUtf8 hraw⟩⟩
    | some raw =>
      by_cases hcorrect : Text.Correctable raw
      · have hline : HasText line (textOf raw) := ⟨raw, hraw, hcorrect, rfl⟩
        by_cases hquit : textOf raw = ":quit"
        · rw [hquit] at hline
          exact ⟨[], [], line :: input, rfl, .nil, List.not_mem_nil, .inl ⟨0, .quit hline⟩⟩
        · obtain ⟨before, texts, rest, rfl, hbefore, hno, hend⟩ := ih
          refine ⟨line :: before, textOf raw :: texts, rest, rfl, .cons hline hbefore, ?_, hend⟩
          exact List.not_mem_cons_of_ne_of_not_mem (Ne.symm hquit) hno
      · exact ⟨[], [], line :: input, rfl, .nil, List.not_mem_nil,
          .inr ⟨line, input, raw, rfl, hraw, hcorrect⟩⟩

/-! ## Configurations that are not loaded -/

/-- The file cannot be read, is no UTF-8 text, or its text is no configuration. -/
inductive Unloadable : Except FileFault ByteArray → Prop where
  | unreadable (cause : FileFault) : Unloadable (.error cause)
  | notUtf8 {bytes : ByteArray} : String.fromUTF8? bytes = none → Unloadable (.ok bytes)
  | invalid {bytes : ByteArray} {text : String} {fault : Json.Fault} :
      String.fromUTF8? bytes = some text → Parameters.ofText text = .error fault →
      Unloadable (.ok bytes)

theorem exists_ofFile_eq_error {content : Except FileFault ByteArray} (h : Unloadable content)
    (path : String) : ∃ e, Parameters.ofFile path content = .error e := by
  unfold Parameters.ofFile
  cases h with
  | unreadable cause => exact ⟨_, rfl⟩
  | notUtf8 hbytes =>
    refine ⟨.unreadable path .notUtf8, ?_⟩
    simp [Except.bind, decodeFile, hbytes]
  | @invalid bytes text fault hbytes hfault =>
    refine ⟨.invalid path text fault, ?_⟩
    simp [Except.bind, decodeFile, hbytes, hfault, Except.mapError]

theorem run_of_load_error (explain : Explanations) (path : String) (e : LoadError)
    (input : List (List UInt8)) :
    run explain (some ⟨path, .error e⟩) input =
      ⟨"⚠️ 无法加载JSON配置文件 (" ++ e.message explain.configuration ++ "), 使用默认配置\n" ++
        (run explain none input).output, (run explain none input).exitCode⟩ := by
  have hnone : run explain none input = resume explain {} (introduction {}) input := by
    have hgreeting : greeting explain none = introduction {} := String.empty_append
    have hnames : names none = {} := rfl
    rw [run, hgreeting, hnames]
  have herror : run explain (some ⟨path, .error e⟩) input =
      resume explain {} ("⚠️ 无法加载JSON配置文件 (" ++ e.message explain.configuration ++ "), 使用默认配置\n" ++
        introduction {}) input := rfl
  rw [herror, hnone, resume_eq, resume_eq explain {} (introduction {})]
  simp only [String.append_assoc]

/-! ## Whole sessions -/

theorem run_of_ends (explain : Explanations) (configuration : Option Configuration)
    {before rest : List (List UInt8)} {texts : List String} {code : Nat}
    (h : List.Forall₂ HasText before texts) (hquit : ":quit" ∉ texts) (hend : Ends rest code) :
    run explain configuration (before ++ rest) =
      ⟨greeting explain configuration ++
        String.join (texts.map (block explain (names configuration))), code⟩ := by
  rw [run, resume_append explain (names configuration) h hquit]
  exact resume_of_ends explain (names configuration) hend _

/-- A session answers the texts of its lines one by one up to its end. -/
theorem session_by_lines (explain : Explanations)
    (hexplain : ∀ text fault, '\n' ∉ (explain.line text fault).toList) :
    (∀ names text, Replies names text (block explain names text)) ∧
    (∀ configuration before texts rest code, List.Forall₂ HasText before texts →
      ":quit" ∉ texts → Ends rest code →
      run explain configuration (before ++ rest) =
        ⟨greeting explain configuration ++
          String.join (texts.map (block explain (names configuration))), code⟩) ∧
    (∀ input : List (List UInt8), ∃ before texts rest, input = before ++ rest ∧
      List.Forall₂ HasText before texts ∧ ":quit" ∉ texts ∧
      ((∃ code, Ends rest code) ∨ ∃ line after raw, rest = line :: after ∧
        String.fromUTF8? ⟨line.toArray⟩ = some raw ∧ ¬ Text.Correctable raw)) ∧
    (∀ raw : String, Text.backspace ∉ raw.toList →
      Text.Correctable raw ∧ textOf raw = Text.trim raw) ∧
    ∀ path content, Unloadable content → ∃ e, Parameters.ofFile path content = .error e ∧
      ∀ input, run explain (some ⟨path, Parameters.ofFile path content⟩) input =
        ⟨"⚠️ 无法加载JSON配置文件 (" ++ e.message explain.configuration ++ "), 使用默认配置\n" ++
          (run explain none input).output, (run explain none input).exitCode⟩ := by
  refine ⟨fun names text => replies_block explain names hexplain text, ?_, exists_end, ?_, ?_⟩
  · intro configuration before texts rest code hbefore hquit hend
    exact run_of_ends explain configuration hbefore hquit hend
  · intro raw hraw
    exact ⟨Text.correctable_of_not_mem hraw, textOf_of_not_mem hraw⟩
  · intro path content hcontent
    obtain ⟨e, he⟩ := exists_ofFile_eq_error hcontent path
    refine ⟨e, he, fun input => ?_⟩
    rw [he]
    exact run_of_load_error explain path e input

/-- A configuration in which a name is a number. -/
def exampleConfiguration : String := "\x7b\"fields\": 1\x7d"

/-- What a common JSON library says of it, and of two malformed lines. -/
def exampleExplanations : Explanations where
  line text _ :=
    if text = "x" then "expected value at line 1 column 1" else "trailing comma at line 1 column 4"
  configuration _ _ := "invalid type: integer `1`, expected a string at line 1 column 12"

/-- A blank line, two lines with different faults, a backspace after an object and a line that is no
text, without a configuration; and then a configuration that is refused. -/
theorem session_by_lines_two_faults :
    (∀ text fault, '\n' ∉ (exampleExplanations.line text fault).toList) ∧
    List.Forall₂ HasText [" \t".toUTF8.toList, "x".toUTF8.toList, "[1,]".toUTF8.toList,
        "\x7b\x7dé\x08".toUTF8.toList]
      ["", "x", "[1,]", "\x7b\x7d"] ∧
    ":quit" ∉ ["", "x", "[1,]", "\x7b\x7d"] ∧
    Ends [[0x22, 0xFF], "\x7b\x7d".toUTF8.toList] 1 ∧
    run exampleExplanations none ([" \t".toUTF8.toList, "x".toUTF8.toList, "[1,]".toUTF8.toList,
        "\x7b\x7dé\x08".toUTF8.toList] ++ [[0x22, 0xFF], "\x7b\x7d".toUTF8.toList]) =
      ⟨introduction {} ++
        ("✗ 解析失败: 输入必须是JSON对象: expected value at line 1 column 1\n" ++
        "✗ 解析失败: 输入必须是JSON对象: trailing comma at line 1 column 4\n" ++
        "\x7b\n  \"fields\": [],\n  \"filters\": \x7b\x7d,\n  \"sorts\": []\n\x7d\n"), 1⟩ ∧
    Unloadable (.ok exampleConfiguration.toUTF8) ∧
    run exampleExplanations (some ⟨"config.json",
        Parameters.ofFile "config.json" (.ok exampleConfiguration.toUTF8)⟩) [] =
      ⟨"⚠️ 无法加载JSON配置文件 (无法解析JSON配置文件 config.json: " ++
        "invalid type: integer `1`, expected a string at line 1 column 12), 使用默认配置\n" ++
        introduction {}, 0⟩ := by
  have hexplain : ∀ text fault, '\n' ∉ (exampleExplanations.line text fault).toList := by
    intro text _
    simp only [exampleExplanations]
    split
    · decide
    · decide
  have hbefore : List.Forall₂ HasText
      [" \t".toUTF8.toList, "x".toUTF8.toList, "[1,]".toUTF8.toList, "\x7b\x7dé\x08".toUTF8.toList]
      ["", "x", "[1,]", "\x7b\x7d"] := by
    refine .cons ⟨" \t", ?_, ?_, ?_⟩ (.cons ⟨"x", ?_, ?_, ?_⟩ (.cons ⟨"[1,]", ?_, ?_, ?_⟩
      (.cons ⟨"\x7b\x7dé\x08", ?_, ?_, ?_⟩ .nil)))
    all_goals decide +kernel
  have hquit : ":quit" ∉ ["", "x", "[1,]", "\x7b\x7d"] := by decide
  have hend : Ends [[0x22, 0xFF], "\x7b\x7d".toUTF8.toList] 1 := .notUtf8 (by decide +kernel)
  have hbytes : String.fromUTF8? exampleConfiguration.toUTF8 = some exampleConfiguration := by
    decide +kernel
  have hfault : Parameters.ofText exampleConfiguration = .error .wrongShape := by decide +kernel
  have hkind : Unloadable (.ok exampleConfiguration.toUTF8) := .invalid hbytes hfault
  have hblocks : String.join (["", "x", "[1,]", "\x7b\x7d"].map (block exampleExplanations {})) =
      "✗ 解析失败: 输入必须是JSON对象: expected value at line 1 column 1\n" ++
      "✗ 解析失败: 输入必须是JSON对象: trailing comma at line 1 column 4\n" ++
      "\x7b\n  \"fields\": [],\n  \"filters\": \x7b\x7d,\n  \"sorts\": []\n\x7d\n" := by
    decide +kernel
  have hgreeting : greeting exampleExplanations none = introduction {} := String.empty_append
  have hnames : names none = {} := rfl
  obtain ⟨-, hlines, -, -, hunloaded⟩ := session_by_lines exampleExplanations hexplain
  refine ⟨hexplain, hbefore, hquit, hend, ?_, hkind, ?_⟩
  · have hrun := hlines none _ _ _ _ hbefore hquit hend
    rw [hgreeting, hnames, hblocks] at hrun
    exact hrun
  · obtain ⟨e, he, hrun⟩ := hunloaded "config.json" _ hkind
    have hload : Parameters.ofFile "config.json" (.ok exampleConfiguration.toUTF8) =
        .error (.invalid "config.json" exampleConfiguration .wrongShape) := by decide +kernel
    obtain rfl := Except.error.inj (he.symm.trans hload)
    have hwarning : "⚠️ 无法加载JSON配置文件 (" ++
        LoadError.message exampleExplanations.configuration
          (.invalid "config.json" exampleConfiguration .wrongShape) ++ "), 使用默认配置\n" =
        "⚠️ 无法加载JSON配置文件 (无法解析JSON配置文件 config.json: " ++
          "invalid type: integer `1`, expected a string at line 1 column 12), 使用默认配置\n" := by
      decide +kernel
    have hempty : run exampleExplanations none [] = ⟨greeting exampleExplanations none, 0⟩ := rfl
    have hwarned := hrun []
    rw [hempty, hgreeting, hwarning] at hwarned
    exact hwarned

/-- A line is not told by its characters without blanks alone: here they do not ask to quit, but
what the backspace leaves of them does. -/
theorem quit_typed_with_backspace :
    String.fromUTF8? ⟨":quix\x08t".toUTF8.toList.toArray⟩ = some ":quix\x08t" ∧
    Text.trim ":quix\x08t" ≠ ":quit" ∧
    ∀ explain : Explanations, ¬ ∃ first second : String,
      Replies (names none) (Text.trim ":quix\x08t") first ∧
      Replies (names none) (Text.trim "\x7b\x7d") second ∧
      run explain none [":quix\x08t".toUTF8.toList, "\x7b\x7d".toUTF8.toList] =
        ⟨greeting explain none ++ (first ++ second), 0⟩ := by
  have hline : HasText ":quix\x08t".toUTF8.toList ":quit" := by
    refine ⟨":quix\x08t", ?_, ?_, ?_⟩
    all_goals decide +kernel
  refine ⟨by decide +kernel, by decide +kernel, ?_⟩
  rintro explain ⟨first, second, hfirst, -, hrun⟩
  have hend : Ends [":quix\x08t".toUTF8.toList, "\x7b\x7d".toUTF8.toList] 0 := .quit hline
  have hquit := run_of_ends explain none .nil List.not_mem_nil hend
  rw [List.nil_append, hrun] at hquit
  have houtput := congrArg Transcript.output hquit
  simp only [List.map_nil, String.join_nil, String.append_empty] at houtput
  have hempty := String.append_eq_left_iff.mp houtput
  have hnothing := (String.append_eq_empty_iff.mp hempty).1
  exact hfirst.ne_empty (by decide +kernel) hnothing

end Session

end ListRequest
