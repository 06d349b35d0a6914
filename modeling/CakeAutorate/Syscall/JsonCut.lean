/-
# JSON texts that end early

A reader of JSON that says why it refuses a text: the text ends inside a value, or it is no
value.  What its users ask of it is in `Reader`: compact texts read back, also with a line end
behind them, and the text of an object that was cut is one that ends early.

`Json.reader` is such a reader.  It counts the brackets that are open and notes whether a string
is; every cut of an object's text leaves the first bracket open.
-/

import CakeAutorate.Syscall.JsonText

namespace CakeAutorate.Syscall

open List

/-- Why a text is not read: it ends inside a value, or it is no value. -/
inductive ReadError where
  | eof
  | invalid

def Json.bytes (v : Json) : Bytes := (text v).map byteOf

/-- A reader that tells a text that ends early from one that is no value. -/
structure Reader where
  read : Bytes → Except ReadError Json
  read_bytes : ∀ v : Json, v.plain → read v.bytes = .ok v
  read_line : ∀ v : Json, v.plain → read (v.bytes ++ [0x0a]) = .ok v
  read_cut : ∀ fields, (Json.obj fields).plain → ∀ cut, cut <+: (Json.obj fields).bytes →
    cut ≠ (Json.obj fields).bytes → read cut = .error .eof

namespace Json

abbrev Nesting := ℕ × Bool

def Nesting.next (s : Nesting) (c : Char) : Nesting :=
  if s.2 then (s.1, !(c == '"'))
  else if c = '"' then (s.1, true)
  else if c = '{' ∨ c = '[' then (s.1 + 1, false)
  else if c = '}' ∨ c = ']' then (s.1 - 1, false)
  else s

def Nesting.after (s : Nesting) (cs : List Char) : Nesting := cs.foldl next s

/-- Along a text, at least `k` brackets stay open. -/
def Nesting.Above (k : ℕ) : Nesting → List Char → Prop
  | s, [] => k ≤ s.1
  | s, c :: cs => k ≤ s.1 ∧ Above k (s.next c) cs

open Nesting

theorem after_append (s : Nesting) (a b : List Char) : s.after (a ++ b) = (s.after a).after b :=
  foldl_append

theorem after_cons (s : Nesting) (c : Char) (cs : List Char) :
    s.after (c :: cs) = (s.next c).after cs :=
  rfl

variable {s : Nesting} {cs : List Char}

theorem above_append {k : ℕ} {a b : List Char} (ha : Above k s a) (hb : Above k (s.after a) b) :
    Above k s (a ++ b) := by
  induction a generalizing s with
  | nil => exact hb
  | cons c a ih => exact ⟨ha.1, ih ha.2 hb⟩

theorem Nesting.Above.mono {k m : ℕ} (hk : k ≤ m) (h : Above m s cs) : Above k s cs := by
  induction cs generalizing s with
  | nil => exact hk.trans h
  | cons c cs ih => exact ⟨hk.trans h.1, ih h.2⟩

theorem Nesting.Above.cut {k : ℕ} {cut : List Char} (h : Above k s cs) (hcut : cut <+: cs) :
    k ≤ (s.after cut).1 := by
  induction cut generalizing s cs with
  | nil =>
    cases cs with
    | nil => exact h
    | cons c cs => exact h.1
  | cons c cut ih =>
    cases cs with
    | nil => exact absurd (prefix_nil.mp hcut) (cons_ne_nil _ _)
    | cons d cs =>
      obtain ⟨rfl, hrest⟩ := cons_prefix_cons.mp hcut
      exact ih h.2 hrest

/-- A text that opens no bracket that it does not close, and closes none that it did not open. -/
structure Level (cs : List Char) : Prop where
  after : ∀ d, Nesting.after (d, false) cs = (d, false)
  above : ∀ d, Above d (d, false) cs

theorem Level.append {a b : List Char} (ha : Level a) (hb : Level b) : Level (a ++ b) := by
  constructor
  · intro d
    rw [after_append, ha.after, hb.after]
  · intro d
    refine above_append (ha.above d) ?_
    rw [ha.after]
    exact hb.above d

theorem level_flat (h : ∀ c ∈ cs, c ≠ '"' ∧ c ≠ '{' ∧ c ≠ '[' ∧ c ≠ '}' ∧ c ≠ ']') : Level cs := by
  have hnext : ∀ c ∈ cs, ∀ d, Nesting.next (d, false) c = (d, false) := by
    intro c hc d
    obtain ⟨h₁, h₂, h₃, h₄, h₅⟩ := h c hc
    simp [Nesting.next, h₁, h₂, h₃, h₄, h₅]
  clear h
  induction cs with
  | nil => exact ⟨fun _ => rfl, fun d => le_refl d⟩
  | cons c cs ih =>
    obtain ⟨hafter, habove⟩ := ih fun c' hc' => hnext c' (List.mem_cons_of_mem _ hc')
    constructor
    · intro d
      rw [after_cons, hnext c List.mem_cons_self]
      exact hafter d
    · intro d
      refine ⟨le_refl d, ?_⟩
      rw [hnext c List.mem_cons_self]
      exact habove d

theorem level_quoted {s : List Char} (hs : ∀ c ∈ s, c ≠ '"') : Level (quoted s) := by
  have hinside : ∀ d, Nesting.after (d, true) s = (d, true) ∧ Above d (d, true) s := by
    intro d
    induction s with
    | nil => exact ⟨rfl, le_refl d⟩
    | cons c s ih =>
      have hnext : Nesting.next (d, true) c = (d, true) := by
        simp [Nesting.next, hs c mem_cons_self]
      obtain ⟨hafter, habove⟩ := ih fun c' hc' => hs c' (mem_cons_of_mem _ hc')
      refine ⟨?_, le_refl d, ?_⟩
      · rw [after_cons, hnext, hafter]
      · rw [hnext]
        exact habove
  constructor
  · intro d
    show Nesting.after (d, true) (s ++ ['"']) = (d, false)
    rw [after_append, (hinside d).1]
    rfl
  · intro d
    refine ⟨le_refl d, above_append (hinside d).2 ?_⟩
    show Above d (Nesting.after (d, true) s) ['"']
    rw [(hinside d).1]
    exact ⟨le_refl d, le_refl d⟩

theorem level_bracketed {o c : Char} (ho : o = '{' ∨ o = '[') (hc : c = '}' ∨ c = ']')
    {body : List Char} (hbody : Level body) : Level (o :: (body ++ [c])) := by
  have hopen : ∀ d, Nesting.next (d, false) o = (d + 1, false) := by
    intro d
    rcases ho with rfl | rfl <;> rfl
  have hclose : ∀ d, Nesting.next (d + 1, false) c = (d, false) := by
    intro d
    rcases hc with rfl | rfl <;> rfl
  constructor
  · intro d
    rw [after_cons, hopen, after_append, hbody.after]
    exact hclose d
  · intro d
    refine ⟨le_refl d, ?_⟩
    rw [hopen]
    refine above_append ((hbody.above (d + 1)).mono (Nat.le_succ d)) ?_
    rw [hbody.after]
    refine ⟨Nat.le_succ d, ?_⟩
    rw [hclose]
    exact le_refl d

theorem digit_flat {c : Char} (hc : c.isDigit = true) :
    c ≠ '"' ∧ c ≠ '{' ∧ c ≠ '[' ∧ c ≠ '}' ∧ c ≠ ']' := by
  refine ⟨?_, ?_, ?_, ?_, ?_⟩ <;> · rintro rfl; cases hc

theorem level_number (n : ℤ) : Level (number n) := by
  have hdigits : ∀ c ∈ Nat.toDigits 10 n.natAbs, c.isDigit = true :=
    fun c hc => Nat.isDigit_of_mem_toDigits (by decide) (by decide) hc
  refine level_flat ?_
  intro c hc
  unfold number at hc
  split at hc
  · rcases mem_cons.mp hc with rfl | hc
    · decide
    · exact digit_flat (hdigits c hc)
  · exact digit_flat (hdigits c hc)

mutual

theorem level_text (v : Json) (hv : v.plain = true) : Level (text v) := by
  match v with
  | .null => exact level_flat (by simp [text])
  | .bool true => exact level_flat (by simp [text])
  | .bool false => exact level_flat (by simp [text])
  | .num n => exact level_number n
  | .str s =>
    exact level_quoted (ne_quote_of_plain hv)
  | .arr [] => exact level_bracketed (.inr rfl) (.inr rfl) (level_flat (forall_mem_nil _))
  | .arr (v :: vs) =>
    simp only [plain, plainItems, Bool.and_eq_true] at hv
    obtain ⟨body, hitems, hbody⟩ := level_textItems vs hv.2
    rw [text, hitems, ← append_assoc]
    exact level_bracketed (.inr rfl) (.inr rfl) ((level_text v hv.1).append hbody)
  | .obj [] => exact level_bracketed (.inl rfl) (.inl rfl) (level_flat (forall_mem_nil _))
  | .obj ((k, v) :: fs) =>
    simp only [plain, plainFields, Bool.and_eq_true] at hv
    obtain ⟨body, hfields, hbody⟩ := level_textFields fs hv.2
    have hkey := level_quoted (ne_quote_of_plainKey hv.1.1)
    have hcolon : Level [':'] := level_flat (by simp)
    have hinner := hkey.append (hcolon.append ((level_text v hv.1.2).append hbody))
    have heq : text (.obj ((k, v) :: fs))
        = '{' :: ((quoted k.toList ++ ([':'] ++ (text v ++ body))) ++ ['}']) := by
      rw [text, hfields]
      simp
    rw [heq]
    exact level_bracketed (.inl rfl) (.inl rfl) hinner

theorem level_textItems (vs : List Json) (hv : plainItems vs = true) :
    ∃ body, textItems vs = body ++ [']'] ∧ Level body := by
  match vs with
  | [] => exact ⟨[], rfl, level_flat (by simp)⟩
  | v :: vs =>
    simp only [plainItems, Bool.and_eq_true] at hv
    obtain ⟨body, hitems, hbody⟩ := level_textItems vs hv.2
    have hcomma : Level [','] := level_flat (by simp)
    refine ⟨[','] ++ (text v ++ body), ?_, hcomma.append ((level_text v hv.1).append hbody)⟩
    rw [textItems, hitems]
    simp

theorem level_textFields (fs : List (String × Json)) (hf : plainFields fs = true) :
    ∃ body, textFields fs = body ++ ['}'] ∧ Level body := by
  match fs with
  | [] => exact ⟨[], rfl, level_flat (by simp)⟩
  | (k, v) :: fs =>
    simp only [plainFields, Bool.and_eq_true] at hf
    obtain ⟨body, hfields, hbody⟩ := level_textFields fs hf.2
    have hkey := level_quoted (ne_quote_of_plainKey hf.1.1)
    have hcomma : Level [','] := level_flat (by simp)
    have hcolon : Level [':'] := level_flat (by simp)
    refine ⟨[','] ++ (quoted k.toList ++ ([':'] ++ (text v ++ body))), ?_,
      hcomma.append (hkey.append (hcolon.append ((level_text v hf.1.2).append hbody)))⟩
    rw [textFields, hfields]
    simp

end

theorem open_of_cut {fields : List (String × Json)} (hv : (Json.obj fields).plain = true)
    {cut : List Char} (hcut : cut <+: text (.obj fields)) (hne : cut ≠ text (.obj fields))
    (hsome : cut ≠ []) : 1 ≤ (Nesting.after (0, false) cut).1 := by
  obtain ⟨body, heq, hbody⟩ : ∃ body, text (.obj fields) = '{' :: (body ++ ['}']) ∧ Level body := by
    match fields with
    | [] => exact ⟨[], rfl, level_flat (by simp)⟩
    | (k, v) :: fs =>
      simp only [plain, plainFields, Bool.and_eq_true] at hv
      obtain ⟨body, hfields, hbody⟩ := level_textFields fs hv.2
      have hkey := level_quoted (ne_quote_of_plainKey hv.1.1)
      have hcolon : Level [':'] := level_flat (by simp)
      refine ⟨quoted k.toList ++ ([':'] ++ (text v ++ body)), ?_,
        hkey.append (hcolon.append ((level_text v hv.1.2).append hbody))⟩
      rw [text, hfields]
      simp
  rw [heq] at hcut hne
  cases cut with
  | nil => exact absurd rfl hsome
  | cons c cut =>
    obtain ⟨rfl, hrest⟩ := cons_prefix_cons.mp hcut
    have hinner : cut <+: body := by
      rcases prefix_concat_iff.mp hrest with hall | hbody
      · exact absurd (congrArg ('{' :: ·) hall) hne
      · exact hbody
    exact (hbody.above 1).cut hinner

def unclosed (cs : List Char) : Bool :=
  cs.isEmpty || decide (Nesting.after (0, false) cs ≠ (0, false))

def blank (c : Char) : Bool := c == ' ' || c == '\n' || c == '\t' || c == '\r'

def readText (cs : List Char) : Except ReadError Json :=
  if unclosed cs then .error .eof
  else match readValue cs.length cs with
    | some (v, rest) => if rest.all blank then .ok v else .error .invalid
    | none => .error .invalid

theorem readText_append {v : Json} (hv : v.plain = true) {rest : List Char} (hr : Ends rest)
    (hblank : rest.all blank = true) (hlevel : Level rest) :
    readText (text v ++ rest) = .ok v := by
  have hclosed : unclosed (text v ++ rest) = false := by
    obtain ⟨c, cs, hc, -⟩ := text_head v
    have hafter := ((level_text v hv).append hlevel).after 0
    rw [unclosed, hafter, hc]
    rfl
  have hread := readValue_text v hv (text v ++ rest).length rest (by rw [length_append]; omega) hr
  rw [readText, hclosed, hread]
  simp [hblank]

theorem map_charOf_bytes {v : Json} (hv : v.plain = true) : v.bytes.map charOf = text v := by
  rw [bytes, map_map, map_congr_left (g := id), map_id]
  exact fun c hc => charOf_byteOf (lt_trans (text_lt v hv c hc) (by decide))

/-- **Compact texts, blanks behind them, and cuts.** -/
def reader : Reader where
  read input := readText (input.map charOf)
  read_bytes v hv := by
    rw [map_charOf_bytes hv, ← append_nil (text v)]
    exact readText_append hv (fun c hc => by cases hc) rfl (level_flat (by simp))
  read_line v hv := by
    rw [map_append, map_charOf_bytes hv]
    exact readText_append hv (ends_cons (by decide) _) (by decide) (level_flat (by simp [charOf]))
  read_cut fields hv cut hcut hne := by
    have heq : cut.map charOf = text (.obj fields) → cut = (Json.obj fields).bytes := by
      intro h
      rw [bytes, ← h, map_byteOf_charOf]
    have hcut' : cut.map charOf <+: text (.obj fields) := by
      rw [← map_charOf_bytes hv]
      exact hcut.map charOf
    have hunclosed : unclosed (cut.map charOf) = true := by
      cases hempty : cut.map charOf with
      | nil => rfl
      | cons c cs =>
        rw [← hempty]
        have hopen := open_of_cut hv hcut' (fun h => hne (heq h)) (by simp [hempty])
        have hlevel : Nesting.after (0, false) (cut.map charOf) ≠ (0, false) := by
          intro h
          rw [h] at hopen
          exact absurd hopen (by decide)
        simp [unclosed, hlevel]
    rw [readText, hunclosed]
    rfl

end Json
end CakeAutorate.Syscall
