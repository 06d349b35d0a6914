/-
# The statements of a configuration file

`name`, `quote`, `token` and `statements` of `uci_edits.rs`.  A file is read from the left: blanks,
semicolons and comment lines separate its statements, and a statement is a command and its words, up
to a semicolon, a comment or the end of the line.  The words are quoted as UCI quotes them, where
quoted fragments are joined and a backslash continues a line.  A place in the file is the number of
bytes before it, so a scan that holds the rest of the file knows where it stands.
-/

import CakeAutorate.Machine.Fallible
import CakeAutorate.Syscall.Lines
import Mathlib.Data.List.TakeWhile
import Std.Data.ExtTreeMap

namespace CakeAutorate.UciEdits

open Syscall List Nat

def maxBytes : ℕ := 1024 * 1024

def maxStatements : ℕ := 32 * 1024

/-- `;`. -/
def semicolon : UInt8 := 0x3b

/-- `#`. -/
def hash : UInt8 := 0x23

/-- `'`. -/
def apostrophe : UInt8 := 0x27

/-- `"`. -/
def quotationMark : UInt8 := 0x22

/-- `\`. -/
def backslash : UInt8 := 0x5c

/-- `\r`. -/
def carriageReturn : UInt8 := 0x0d

/-- `u8::is_ascii_whitespace`. -/
def isWhitespace (b : UInt8) : Bool := b == 0x20 || b == 0x09 || b == newline || b == 0x0c || b == 0x0d

/-- `u8::is_ascii_alphanumeric`, or `_`. -/
def isNameByte (b : UInt8) : Bool :=
  (0x30 ≤ b && b ≤ 0x39) || (0x41 ≤ b && b ≤ 0x5a) || (0x61 ≤ b && b ≤ 0x7a) || b == 0x5f

def validName (value : Bytes) : Bool :=
  !value.isEmpty && decide (value.length ≤ 64) && value.all isNameByte

def name (value : Bytes) : Except String Bytes :=
  if validName value then .ok value else .error "uci-edit-name-invalid"

/-- `value.chars().any(char::is_control)`, on the bytes of the string: the controls after U+007F are
the two bytes from `c2 80` to `c2 9f`. -/
def hasControl : Bytes → Bool
  | [] => false
  | b :: rest =>
    decide (b < 0x20) || b == 0x7f ||
      (b == 0xc2 && (rest.head?.any fun c => decide (0x80 ≤ c) && decide (c ≤ 0x9f))) || hasControl rest

def quotable (value : Bytes) : Bool := decide (value.length ≤ 4096) && !hasControl value

/-- `value.replace('\'', "'\\''")` between apostrophes. -/
def quoted (value : Bytes) : Bytes :=
  apostrophe ::
    (value.flatMap fun b =>
      if b = apostrophe then [apostrophe, backslash, apostrophe, apostrophe] else [b]) ++ [apostrophe]

def quote (value : Bytes) : Except String Bytes :=
  if quotable value then .ok (quoted value) else .error "uci-edit-value-invalid"

def isTail (b : UInt8) : Bool := decide (0x80 ≤ b) && decide (b ≤ 0xbf)

/-- `std::str::from_utf8` accepts the bytes. -/
def validUtf8 : Bytes → Bool
  | [] => true
  | a :: rest =>
    if a < 0x80 then validUtf8 rest
    else match rest with
      | b :: rest =>
        if 0xc2 ≤ a ∧ a ≤ 0xdf then isTail b && validUtf8 rest
        else match rest with
          | c :: rest =>
            if 0xe0 ≤ a ∧ a ≤ 0xef then
              isTail b && isTail c && !(a == 0xe0 && decide (b < 0xa0))
                && !(a == 0xed && decide (0x9f < b)) && validUtf8 rest
            else match rest with
              | d :: rest =>
                decide (0xf0 ≤ a) && decide (a ≤ 0xf4) && isTail b && isTail c && isTail d
                  && !(a == 0xf0 && decide (b < 0x90)) && !(a == 0xf4 && decide (0x8f < b))
                  && validUtf8 rest
              | [] => false
          | [] => false
      | [] => false

/-- The loop of `token`: the quotation that is open, what has been read, and the rest of the file. -/
def readToken (opened : Option UInt8) (output : Bytes) :
    Bytes → Except String (Option UInt8 × Bytes × Bytes)
  | [] => .ok (opened, output, [])
  | byte :: rest =>
    if opened = some apostrophe then
      if byte = apostrophe then readToken none output rest
      else readToken opened (output ++ [byte]) rest
    else if opened = some quotationMark ∧ byte = quotationMark then readToken none output rest
    else if opened = none ∧ (isWhitespace byte ∨ byte = semicolon ∨ byte = hash) then
      .ok (opened, output, byte :: rest)
    else if opened = none ∧ (byte = apostrophe ∨ byte = quotationMark) then
      readToken (some byte) output rest
    else if byte = backslash then
      match rest with
      | [] => .error "uci-edit-dangling-escape"
      | next :: rest =>
        if next = newline then readToken opened output rest
        else match rest with
          | [] => readToken opened (output ++ [next]) []
          | following :: rest' =>
            if next = carriageReturn ∧ following = newline then readToken opened output rest'
            else readToken opened (output ++ [next]) (following :: rest')
    else readToken opened (output ++ [byte]) rest

/-- `token`: the word, and the rest of the file after it. -/
def token (input : Bytes) : Except String (Bytes × Bytes) := do
  let (opened, output, rest) ← readToken none [] input
  if opened.isSome || rest.length == input.length then .error "uci-edit-token-invalid"
  else .ok (output, rest)

/-- The words of a statement, `allowed` more of them, with the rest of the file after the last word
and after the end of the statement. -/
def readWords : ℕ → List Bytes → Bytes → Except String (List Bytes × Bytes × Bytes)
  | 0, _, _ => .error "uci-edit-too-many-tokens"
  | allowed + 1, words, input =>
    match token input with
    | .error e => .error e
    | .ok (word, afterToken) =>
      match afterToken.dropWhile fun b => isWhitespace b && b != newline with
      | [] => .ok (words ++ [word], afterToken, [])
      | b :: rest =>
        if b = hash then .ok (words ++ [word], afterToken, (rest.dropWhile (· != newline)).tail)
        else if b = semicolon ∨ b = newline then .ok (words ++ [word], afterToken, rest)
        else readWords allowed (words ++ [word]) (b :: rest)

/-- The commands of a file. -/
inductive Command
  | package | config | option | list
  deriving DecidableEq

def commandOf (word : Bytes) : Option Command :=
  if word = ascii "p" ∨ word = ascii "package" then some .package
  else if word = ascii "c" ∨ word = ascii "config" then some .config
  else if word = ascii "o" ∨ word = ascii "option" then some .option
  else if word = ascii "l" ∨ word = ascii "list" then some .list
  else none

/-- `Statement`: its span from `start` to `stop`, the end of its last word, its command with the words
after it, and the named section it stands in. -/
structure Statement where
  start : ℕ
  tokenEnd : ℕ
  stop : ℕ
  command : Command
  arguments : List Bytes
  section_ : Option Bytes
  deriving DecidableEq

abbrev Sections := Std.ExtTreeMap Bytes Bytes

def beginSection (sections : Sections) (kind title : Bytes) : Except String (Sections × Option Bytes) :=
  if title.isEmpty then .ok (sections, none)
  else do
    let title ← name title
    if !validUtf8 kind then .error "uci-edit-kind-invalid"
    else if sections[title]?.any (· != kind) then .error "uci-edit-section-type-ambiguous"
    else .ok (sections.insert title kind, some title)

/-- The words of a statement are checked: its command, what follows it, and the sections and the
current section after it. -/
def interpret (sections : Sections) (current : Option Bytes) (words : List Bytes) :
    Except String (Command × List Bytes × Sections × Option Bytes) :=
  match words with
  | [] => .error "uci-edit-command-invalid"
  | first :: arguments =>
    match commandOf first, arguments with
    | some .package, [_] => .ok (.package, arguments, sections, current)
    | some .config, [_] => .ok (.config, arguments, sections, none)
    | some .config, [kind, title] => do
        let (sections, current) ← beginSection sections kind title
        .ok (.config, arguments, sections, current)
    | some .option, key :: rest =>
      if rest.length ≤ 1 then (name key).map fun _ => (.option, arguments, sections, current)
      else .error "uci-edit-command-invalid"
    | some .list, key :: rest =>
      if rest.length ≤ 1 then (name key).map fun _ => (.list, arguments, sections, current)
      else .error "uci-edit-command-invalid"
    | _, _ => .error "uci-edit-command-invalid"

variable {input : Bytes} {sections sections' : Sections} {current : Option Bytes}

theorem readToken_length {opened opened' : Option UInt8} {output output' rest : Bytes}
    (h : readToken opened output input = .ok (opened', output', rest)) :
    rest.length ≤ input.length := by
  fun_induction readToken opened output input with
  | case1 => cases h; exact le_rfl
  | case2 _ _ ih => exact (ih h).trans (le_succ _)
  | case3 _ _ _ _ ih => exact (ih h).trans (le_succ _)
  | case4 => rename_i ih; exact (ih h).trans (le_succ _)
  | case5 => cases h; exact le_rfl
  | case6 => rename_i ih; exact (ih h).trans (le_succ _)
  | case7 => cases h
  -- an escape takes one or two bytes more than its backslash
  | case8 => rename_i ih; exact (ih h).trans (by simp only [length_cons]; omega)
  | case9 => rename_i ih; exact (ih h).trans (by simp only [length_nil]; omega)
  | case10 => rename_i ih; exact (ih h).trans (by simp only [length_cons]; omega)
  | case11 => rename_i ih; exact (ih h).trans (by simp only [length_cons]; omega)
  | case12 => rename_i ih; exact (ih h).trans (le_succ _)

theorem token_shrinks {word rest : Bytes} (h : token input = .ok (word, rest)) :
    rest.length < input.length := by
  unfold token at h
  cases hread : readToken none [] input with
  | error e => rw [hread] at h; cases h
  | ok read =>
    rw [hread] at h
    have hle := readToken_length hread
    simp only [bind, Except.bind] at h
    split at h
    · cases h
    · rename_i hends
      cases h
      simp only [Bool.or_eq_true, beq_iff_eq, not_or] at hends
      omega

theorem readWords_shrinks {allowed : ℕ} {words words' : List Bytes} {afterToken rest : Bytes}
    (h : readWords allowed words input = .ok (words', afterToken, rest)) :
    rest.length ≤ afterToken.length ∧ afterToken.length < input.length := by
  induction allowed generalizing words input with
  | zero => cases h
  | succ allowed ih =>
    rw [readWords] at h
    split at h
    · cases h
    · rename_i word afterWord htoken
      have hshrinks := token_shrinks htoken
      have hblanks :=
        (dropWhile_sublist (fun b => isWhitespace b && b != newline) (l := afterWord)).length_le
      split at h
      · cases h
        exact ⟨zero_le _, hshrinks⟩
      · rename_i b tail hafter
        rw [hafter, length_cons] at hblanks
        split at h
        · cases h
          have hcomment := (dropWhile_sublist (· != newline) (l := tail)).length_le
          have htail := length_tail (l := tail.dropWhile (· != newline))
          exact ⟨by omega, hshrinks⟩
        · split at h
          · cases h
            exact ⟨by omega, hshrinks⟩
          · obtain ⟨hstop, hstart⟩ := ih h
            rw [length_cons] at hstart
            exact ⟨hstop, by omega⟩

/-- The loop of `statements` over the rest of a file of `total` bytes. -/
def scan (total count : ℕ) (sections : Sections) (current : Option Bytes) (input : Bytes) :
    Except String (List Statement × Sections) :=
  match input with
  | [] => .ok ([], sections)
  | b :: rest =>
    if isWhitespace b || b == semicolon then scan total count sections current rest
    else if b == hash then scan total count sections current (rest.dropWhile (· != newline))
    else if count = maxStatements then .error "uci-edit-statement-limit"
    else match hwords : readWords 4 [] (b :: rest) with
      | .error e => .error e
      | .ok (words, afterToken, after) =>
        match interpret sections current words with
        | .error e => .error e
        | .ok (command, arguments, sections', current') =>
          (scan total (count + 1) sections' current' after).map fun result =>
            (⟨total - (b :: rest).length, total - afterToken.length, total - after.length, command,
              arguments, current'⟩ :: result.1, result.2)
termination_by input.length
decreasing_by
  · exact lt_succ_self _
  · exact lt_succ_of_le (dropWhile_sublist _).length_le
  · have hshrinks := readWords_shrinks hwords
    omega

def statements (input : Bytes) : Except String (List Statement × Sections) :=
  if maxBytes < input.length || input.contains 0 then .error "uci-edit-input-invalid"
  else scan input.length 0 ∅ none input

theorem name_ok {value result : Bytes} : name value = .ok result ↔
    validName value = true ∧ result = value := by
  unfold name
  split
  · rename_i h
    simp only [Except.ok.injEq, h, true_and, eq_comm]
  · rename_i h
    simp only [reduceCtorEq, h, Bool.false_eq_true, false_and]

/-- What the words of a statement do to the sections and the current one. -/
structure Interpreted (sections : Sections) (current : Option Bytes) (command : Command)
    (arguments : List Bytes) (sections' : Sections) (current' : Option Bytes) : Prop where
  stays : command ≠ .config → sections' = sections ∧ current' = current
  begins : command = .config → (current' = none ∧ sections' = sections) ∨
    ∃ title kind, current' = some title ∧ validName title = true ∧
      sections' = sections.insert title kind
  key : command = .option ∨ command = .list →
    ∃ key, arguments.head? = some key ∧ validName key = true

theorem beginSection_ok {kind title : Bytes} {current' : Option Bytes}
    (h : beginSection sections kind title = .ok (sections', current')) :
    (current' = none ∧ sections' = sections) ∨
      ∃ title kind, current' = some title ∧ validName title = true ∧
        sections' = sections.insert title kind := by
  unfold beginSection at h
  split at h
  · cases h
    exact Or.inl ⟨rfl, rfl⟩
  · obtain ⟨title', hname, hrest⟩ := bind_ok.mp h
    obtain ⟨hvalid, rfl⟩ := name_ok.mp hname
    split at hrest
    · cases hrest
    · split at hrest
      · cases hrest
      · cases hrest
        exact Or.inr ⟨title', kind, rfl, hvalid, rfl⟩

theorem interpret_ok {current' : Option Bytes} {words arguments : List Bytes} {command : Command}
    (h : interpret sections current words = .ok (command, arguments, sections', current')) :
    Interpreted sections current command arguments sections' current' := by
  unfold interpret at h
  split at h
  · cases h
  · split at h
    · cases h
      exact ⟨fun _ => ⟨rfl, rfl⟩, fun h => absurd h (by decide),
        fun h => by rcases h with h | h <;> cases h⟩
    · cases h
      exact ⟨fun h => absurd rfl h, fun _ => Or.inl ⟨rfl, rfl⟩,
        fun h => by rcases h with h | h <;> cases h⟩
    · obtain ⟨begun, hbegin, h⟩ := bind_ok.mp h
      cases h
      exact ⟨fun h => absurd rfl h, fun _ => beginSection_ok hbegin,
        fun h => by rcases h with h | h <;> cases h⟩
    iterate 2
      · rename_i key rest _
        split at h
        · obtain ⟨_, hname, h⟩ := map_ok.mp h
          cases h
          exact ⟨fun _ => ⟨rfl, rfl⟩, fun h => absurd h (by decide), fun _ =>
            ⟨key, rfl, (name_ok.mp hname).1⟩⟩
        · cases h
    · cases h

/-- Statements that follow one another from a place in a file, each in the section that the last
`config` before it begins. -/
def Chained (total : ℕ) : ℕ → Option Bytes → List Statement → Prop
  | position, _, [] => position ≤ total
  | position, current, s :: rest =>
    position ≤ s.start ∧ s.start < s.tokenEnd ∧ s.tokenEnd ≤ s.stop ∧
      (s.command ≠ .config → s.section_ = current) ∧
      (s.command = .option ∨ s.command = .list →
        ∃ key, s.arguments.head? = some key ∧ validName key = true) ∧
      Chained total s.stop s.section_ rest

theorem Chained.le {total position : ℕ} {statements : List Statement}
    (h : Chained total position current statements) : position ≤ total := by
  induction statements generalizing position current with
  | nil => exact h
  | cons s rest ih =>
    obtain ⟨hstart, htoken, hstop, -, -, hrest⟩ := h
    have hle := ih hrest
    omega

theorem Chained.mono {total position position' : ℕ} {statements : List Statement}
    (h : Chained total position current statements) (hle : position' ≤ position) :
    Chained total position' current statements := by
  cases statements with
  | nil => exact hle.trans h
  | cons s rest => exact ⟨hle.trans h.1, h.2⟩

/-- The statements of a file are chained, and its named sections are those that a `config` begins. -/
theorem scan_chained {total count : ℕ} {result : List Statement} (hinput : input.length ≤ total)
    (h : scan total count sections current input = .ok (result, sections')) :
    Chained total (total - input.length) current result ∧
      ∀ a, a ∈ sections' ↔ a ∈ sections ∨ ∃ s ∈ result, s.command = .config ∧ s.section_ = some a := by
  fun_induction scan total count sections current input generalizing result sections' with
  | case1 count sections current =>
    cases h
    refine ⟨sub_le _ _, fun a => ⟨Or.inl, ?_⟩⟩
    rintro (hmem | ⟨s, hs, -⟩)
    · exact hmem
    · exact absurd hs not_mem_nil
  | case2 count sections current b rest _ ih =>
    rw [length_cons] at hinput
    obtain ⟨hchained, hsections⟩ := ih (by omega) h
    exact ⟨hchained.mono (by rw [length_cons]; omega), hsections⟩
  | case3 count sections current b rest _ _ ih =>
    have hle := (dropWhile_sublist (· != newline) (l := rest)).length_le
    rw [length_cons] at hinput
    obtain ⟨hchained, hsections⟩ := ih (by omega) h
    exact ⟨hchained.mono (by rw [length_cons]; omega), hsections⟩
  | case4 => cases h
  | case5 => cases h
  | case6 => cases h
  | case7 count sections current b rest _ _ _ words afterToken after hwords command arguments begun
      current' hinterpret ih =>
      have hshrinks := readWords_shrinks hwords
      have hread := interpret_ok hinterpret
      cases hscan : scan total (count + 1) begun current' after with
      | error e => rw [hscan] at h; cases h
      | ok scanned =>
        rw [hscan] at h
        cases h
        obtain ⟨hchained, hsections⟩ := ih (by omega) hscan
        refine ⟨⟨le_rfl, by simp only; omega, by simp only; omega, fun hcommand =>
          (hread.stays hcommand).2,
          hread.key, hchained⟩, fun a => ?_⟩
        rw [hsections, exists_mem_cons_iff]
        by_cases hcommand : command = .config
        · rcases hread.begins hcommand with ⟨hcurrent, hsame⟩ | ⟨title, kind, hcurrent, -, hinsert⟩
          · rw [hsame, hcurrent]
            simp
          · rw [hinsert, hcurrent, Std.ExtTreeMap.mem_insert, Std.LawfulEqCmp.compare_eq_iff_eq]
            simp only [hcommand, Option.some.injEq, true_and]
            tauto
        · simp [(hread.stays hcommand).1, hcommand]

/-- **The statements of a file** are chained from its beginning, and its named sections are those that
a `config` begins. -/
theorem statements_chained {result : List Statement} (h : statements input = .ok (result, sections)) :
    input.length ≤ maxBytes ∧ Chained input.length 0 none result ∧
      ∀ a, a ∈ sections ↔ ∃ s ∈ result, s.command = .config ∧ s.section_ = some a := by
  unfold statements at h
  split at h
  · cases h
  · rename_i hinput
    simp only [Bool.or_eq_true, decide_eq_true_eq, not_or, not_lt] at hinput
    obtain ⟨hchained, hsections⟩ := scan_chained le_rfl h
    rw [Nat.sub_self] at hchained
    refine ⟨hinput.1, hchained, fun a => ?_⟩
    rw [hsections]
    simp

end CakeAutorate.UciEdits
