/-
# Rendering edits into a file

`render` of `uci_edits.rs`.  The edits are collected into one patch for each section, every patch is
compared with the statements of its section, and the replacements and insertions that this gives are
spliced into the bytes of the file in order.
-/

import CakeAutorate.Machine.Splice
import CakeAutorate.UciEdits.Statements
import Mathlib.Algebra.GroupWithZero.Nat

namespace CakeAutorate.UciEdits

open Syscall Machine

def maxEdits : ℕ := 4096

/-- `Edit`, its strings by their bytes. -/
inductive Edit
  | addSection (section_ kind : Bytes)
  | deleteSection (section_ : Bytes)
  | set (section_ option value : Bytes)
  | delete (section_ option : Bytes)
  deriving DecidableEq

def Edit.section_ : Edit → Bytes
  | .addSection a _ => a
  | .deleteSection a => a
  | .set a _ _ => a
  | .delete a _ => a

def Edit.fields : Edit → List Bytes
  | .addSection a kind => [a, kind]
  | .deleteSection a => [a]
  | .set a option value => [a, option, value]
  | .delete a option => [a, option]

def payload (edits : List Edit) : ℕ := ((edits.flatMap Edit.fields).map List.length).sum

def checkPayload (total : ℕ) : List Bytes → Except String Unit
  | [] => .ok ()
  | field :: rest =>
    if maxBytes < total + field.length then .error "uci-edit-payload-limit"
    else checkPayload (total + field.length) rest

structure SectionPatch where
  add : Option Bytes
  delete : Bool
  options : Std.ExtTreeMap Bytes (Option Bytes)

/-- `SectionPatch::default`. -/
def SectionPatch.empty : SectionPatch := ⟨none, false, ∅⟩

def SectionPatch.struck (p : SectionPatch) : Bool := p.delete || p.add.isSome

abbrev Patches := Std.ExtTreeMap Bytes SectionPatch

section

variable (sections : Sections)

def SectionPatch.missing (a : Bytes) (p : SectionPatch) : Bool :=
  p.delete || (!sections.contains a && p.add.isNone)

def patchEdit (p : SectionPatch) : Edit → Except String SectionPatch
  | .addSection a kind => do
      let kind ← name kind
      if (sections.contains a && !p.delete) || p.add.isSome then
        .error "uci-edit-add-section-already-exists"
      else .ok ⟨some kind, false, ∅⟩
  | .deleteSection a =>
    if !sections.contains a && p.add.isNone && !p.delete then
      .error "uci-edit-target-requires-a-named-section"
    else .ok ⟨none, true, ∅⟩
  | .set a option value => do
      let option ← name option
      if p.missing sections a then .error "uci-edit-target-requires-a-named-section"
      else (quote value).map fun _ => { p with options := p.options.insert option (some value) }
  | .delete a option => do
      let option ← name option
      if p.missing sections a then .error "uci-edit-target-requires-a-named-section"
      else .ok { p with options := p.options.insert option none }

def applyEdit (patches : Patches) (e : Edit) : Except String Patches := do
  let a ← name e.section_
  let p ← patchEdit sections (patches[a]?.getD .empty) e
  .ok (patches.insert a p)

def collect (edits : List Edit) : Except String Patches :=
  edits.foldlM (applyEdit sections) ∅

end

/-- `format!("option {key} {}", quote(value)?)`. -/
def optionText (key value : Bytes) : Except String Bytes :=
  (quote value).map fun value => ascii "option " ++ key ++ [0x20] ++ value

/-- `format!("\toption {key} {}\n", quote(value)?)`. -/
def optionLine (key value : Bytes) : Except String Bytes :=
  (optionText key value).map fun text => 0x09 :: text ++ [newline]

/-- `format!("config {kind} '{section}'\n")`. -/
def configLine (kind a : Bytes) : Bytes :=
  ascii "config " ++ kind ++ [0x20, apostrophe] ++ a ++ [apostrophe, newline]

/-- The statements of a section against its patch: the replacements, the keys that have been written
and the end of the last statement. -/
def replace (p : SectionPatch) (seen : List Bytes) (last : Option ℕ) :
    List Statement → Except String (List (Cut Bytes) × List Bytes × Option ℕ)
  | [] => .ok ([], seen, last)
  | s :: rest =>
    if s.command = .package then replace p seen last rest
    else if p.struck then
      (replace p seen (some s.stop) rest).map fun r => (⟨s.start, s.stop, []⟩ :: r.1, r.2)
    else if s.command = .config then replace p seen (some s.stop) rest
    else do
      let key ← name (s.arguments.head?.getD [])
      match p.options[key]? with
      | none => replace p seen (some s.stop) rest
      | some none =>
        (replace p seen (some s.stop) rest).map fun r => (⟨s.start, s.stop, []⟩ :: r.1, r.2)
      | some (some value) =>
        if key ∈ seen then
          (replace p seen (some s.stop) rest).map fun r => (⟨s.start, s.stop, []⟩ :: r.1, r.2)
        else do
          let text ← optionText key value
          (replace p (key :: seen) (some s.stop) rest).map fun r =>
            (⟨s.start, s.tokenEnd, text⟩ :: r.1, r.2)

abbrev Insertions := Std.ExtTreeMap ℕ Bytes

/-- `insertions.entry(at).or_default()`, with a newline where the line before is not ended, and the
text at its end. -/
def insertText (original : Bytes) (insertions : Insertions) (at_ : ℕ) (text : Bytes) : Insertions :=
  let bytes := insertions[at_]?.getD []
  let bytes :=
    if bytes.isEmpty && at_ != 0 && original[at_ - 1]? != some newline then [newline] else bytes
  insertions.insert at_ (bytes ++ text)

def SectionPatch.values (p : SectionPatch) : List (Bytes × Bytes) :=
  p.options.toList.filterMap fun o => o.2.map fun value => (o.1, value)

def optionLines : List (Bytes × Bytes) → Except String Bytes
  | [] => .ok []
  | o :: rest => do
      let line ← optionLine o.1 o.2
      let lines ← optionLines rest
      .ok (line ++ lines)

def insertMissing (original : Bytes) (last : Option ℕ) (insertions : Insertions) :
    List (Bytes × Bytes) → Except String Insertions
  | [] => .ok insertions
  | o :: rest =>
    match last with
    | none => .error "uci-edit-target-requires-a-named-section"
    | some at_ => do
        let line ← optionLine o.1 o.2
        insertMissing original last (insertText original insertions at_ line) rest

def patchSection (original : Bytes) (statements : List Statement)
    (acc : List (Cut Bytes) × Insertions) (entry : Bytes × SectionPatch) :
    Except String (List (Cut Bytes) × Insertions) := do
  let (cuts, seen, last) ←
    replace entry.2 [] none (statements.filter fun s => s.section_ = some entry.1)
  if entry.2.struck then .ok (acc.1 ++ cuts, acc.2)
  else
    let missing := entry.2.values.filter fun o => o.1 ∉ seen
    (insertMissing original last acc.2 missing).map fun insertions => (acc.1 ++ cuts, insertions)

def appendSection (original : Bytes) (insertions : Insertions) (entry : Bytes × SectionPatch) :
    Except String Insertions :=
  match entry.2.add with
  | none => .ok insertions
  | some kind =>
    (optionLines entry.2.values).map fun lines =>
      insertText original insertions original.length (configLine kind entry.1 ++ lines)

def splice (original : Bytes) (position : ℕ) (output : Bytes) : List (Cut Bytes) → Except String Bytes
  | [] =>
    let output := output ++ original.drop position
    if maxBytes < output.length then .error "uci-edit-output-too-large" else .ok output
  | c :: rest =>
    if c.start < position then .error "uci-edit-overlapping-ranges"
    else
      let output := output ++ (original.drop position).take (c.start - position) ++ c.text
      if maxBytes < output.length then .error "uci-edit-output-too-large"
      else splice original c.stop output rest

def render (original : Bytes) (edits : List Edit) : Except String Bytes := do
  if maxEdits < edits.length then .error "uci-edit-count-limit"
  else
    checkPayload 0 (edits.flatMap Edit.fields)
    let (statements, sections) ← statements original
    let patches ← collect sections edits
    let (cuts, insertions) ← patches.toList.foldlM (patchSection original statements) ([], ∅)
    let insertions ← patches.toList.foldlM (appendSection original) insertions
    let cuts := cuts ++ insertions.toList.map fun i => ⟨i.1, i.1, i.2⟩
    splice original 0 [] (cuts.mergeSort Cut.le)

end CakeAutorate.UciEdits
