/-
# The two readers of an exported value

`parse_scalar` in `operations/scheduler_config.rs` beside `parse_uci_values` in `main.rs`.  Both
read what `uci show` prints behind the `=` of an option: its values between apostrophes, with blanks
between them.  The second takes a backslash between apostrophes as it stands, the first takes it as
an escape.
-/

import CakeAutorate.Candidate.Words
import CakeAutorate.SchedulerConfig.Snapshot
import CakeAutorate.Sqm.Intent

namespace CakeAutorate.SchedulerConfig

open Wire Protocol Routing Candidate List ScalarState Except Prod

/-- The blanks between two values. -/
structure Blanks where
  text : Text
  ne : text ≠ []
  white : ∀ c ∈ text, isWhitespace c = true

def Blanks.one : Blanks :=
  ⟨[' '], by decide, fun c hc => by rw [mem_singleton.mp hc]; rfl⟩

def printSpaced (value : Text) (rest : List (Blanks × Text)) : Text :=
  quote value ++ rest.flatMap fun r => r.1.text ++ quote r.2

variable (value : Text)

theorem printSpaced_cons (r : Blanks × Text) (rest : List (Blanks × Text)) :
    printSpaced value (r :: rest) = quote value ++ (r.1.text ++ printSpaced r.2 rest) := by
  simp [printSpaced]

variable (rest : List (Blanks × Text))

theorem printSpaced_ends :
    ∃ s, printSpaced value rest = '\'' :: s ∧ ∃ t, printSpaced value rest = t ++ ['\''] := by
  refine ⟨_, rfl, ?_⟩
  induction rest generalizing value with
  | nil =>
    obtain ⟨t, ht⟩ := quote_ends value
    exact ⟨t, by rw [printSpaced, flatMap_nil, append_nil, ht]⟩
  | cons r rest ih =>
    obtain ⟨t, ht⟩ := ih r.2
    refine ⟨quote value ++ (r.1.text ++ t), ?_⟩
    rw [printSpaced_cons, ht]
    simp

theorem trim_printSpaced :
    trim (printSpaced value rest) = printSpaced value rest := by
  have hapostrophe : isWhitespace '\'' = false := by decide
  obtain ⟨s, hs, t, ht⟩ := printSpaced_ends value rest
  refine trim_eq ?_ ?_
  · intro c hc
    rw [← Option.some.inj hc]
    exact hapostrophe
  · intro c hc
    rw [ht, getLast?_concat] at hc
    rw [← Option.some.inj hc]
    exact hapostrophe

/-- A blank neither quotes nor escapes. -/
theorem unquoted_of_blank {c : Char} (hc : isWhitespace c = true) : c ≠ '\'' ∧ c ≠ '\\' := by
  constructor
  · rintro rfl
    exact absurd hc (by decide)
  · rintro rfl
    exact absurd hc (by decide)

theorem parseWords_skip {blanks : Text} (hwhite : ∀ c ∈ blanks, isWhitespace c = true)
    (t : Text) : parseWords false false [] (blanks ++ t) = parseWords false false [] t := by
  induction blanks with
  | nil => rfl
  | cons c blanks ih =>
    have hc := hwhite c mem_cons_self
    obtain ⟨hquote, hescape⟩ := unquoted_of_blank hc
    rw [cons_append, parseWords.eq_def]
    simp only [Bool.false_eq_true, if_false, if_neg hquote, if_neg hescape, hc, if_true]
    exact ih fun d hd => hwhite d (mem_cons_of_mem _ hd)

theorem parseWords_end (blanks : Blanks) (current t : Text) :
    parseWords false true current (blanks.text ++ t) = current :: parseWords false false [] t := by
  obtain ⟨text, hne, hwhite⟩ := blanks
  obtain ⟨c, text, rfl⟩ := exists_cons_of_ne_nil hne
  have hc := hwhite c mem_cons_self
  obtain ⟨hquote, hescape⟩ := unquoted_of_blank hc
  have hskip := parseWords_skip (fun d hd => hwhite d (mem_cons_of_mem _ hd)) t
  rw [parseWords.eq_def]
  simp [if_neg hquote, if_neg hescape, hc, hskip]

/-- **`parse_uci_values`** gives the values that were exported. -/
theorem parseUciValues_printSpaced :
    parseUciValues (printSpaced value rest) = value :: rest.map snd := by
  rw [parseUciValues, trim_printSpaced]
  induction rest generalizing value with
  | nil =>
    rw [printSpaced, flatMap_nil, parseWords_quote]
    rfl
  | cons r rest ih => rw [printSpaced_cons, parseWords_quote, parseWords_end, ih, map_cons]

def outside (started ended : Bool) (value : Text) : ScalarState :=
  ⟨value, false, false, started, ended⟩

def inside (ended : Bool) (value : Text) : ScalarState := ⟨value, true, false, true, ended⟩

variable {v : Text}

/-- **The first value**, and an ended scalar's apostrophes, are taken as they stand. -/
theorem body_taken {ended : Bool} (hv : '\\' ∉ v) (hended : ended = false ∨ ∀ c ∈ v, c = '\'')
    (value : Text) :
    (v.flatMap quotedChar).foldlM push (inside ended value) = .ok (inside ended (value ++ v)) := by
  induction v generalizing value with
  | nil => rw [append_nil]; rfl
  | cons c v ih =>
    rw [mem_cons, not_or] at hv
    have hrest : ended = false ∨ ∀ d ∈ v, d = '\'' :=
      hended.imp_right fun h d hd => h d (mem_cons_of_mem _ hd)
    have hstep : (quotedChar c).foldlM push (inside ended value) =
        .ok (inside ended (value ++ [c])) := by
      by_cases hc : c = '\''
      · rw [hc]
        rfl
      · have hopen : ended = false := hended.resolve_right fun h => hc (h c mem_cons_self)
        rw [quotedChar, if_neg hc, foldlM_cons, hopen]
        simp [push, inside, hc, Ne.symm hv.1, bind, Except.bind, pure, Except.pure]
    rw [flatMap_cons, foldlM_append, hstep]
    show (v.flatMap quotedChar).foldlM push (inside ended (value ++ [c])) = _
    rw [ih hv.2 hrest, append_assoc, singleton_append]

/-- **A further value** is refused at its first character other than an apostrophe. -/
theorem body_refused (hv : '\\' ∉ v) (hother : ∃ c ∈ v, c ≠ '\'') (value : Text) :
    (v.flatMap quotedChar).foldlM push (inside true value) =
      .error "scheduled UCI option contains multiple values" := by
  induction v generalizing value with
  | nil =>
    obtain ⟨c, hc, _⟩ := hother
    cases hc
  | cons c v ih =>
    rw [mem_cons, not_or] at hv
    rw [flatMap_cons, foldlM_append]
    by_cases hc : c = '\''
    · have hrest : ∃ d ∈ v, d ≠ '\'' := by
        obtain ⟨d, hd, hne⟩ := hother
        rcases mem_cons.mp hd with rfl | hd
        · exact absurd hc hne
        · exact ⟨d, hd, hne⟩
      rw [hc]
      exact ih hv.2 hrest _
    · rw [quotedChar, if_neg hc, foldlM_cons]
      simp [push, inside, hc, Ne.symm hv.1, bind, Except.bind]

theorem quote_read (v t : Text) (started ended : Bool) (value : Text) :
    (quote v ++ t).foldlM push (outside started ended value) =
      (do
        let s ← (v.flatMap quotedChar).foldlM push (inside ended value)
        ('\'' :: t).foldlM push s) := by
  rw [quote, append_assoc, cons_append, foldlM_cons]
  exact foldlM_append

theorem quote_taken {ended : Bool} (hv : '\\' ∉ v) (hended : ended = false ∨ ∀ c ∈ v, c = '\'')
    (t : Text) (started : Bool) (value : Text) :
    (quote v ++ t).foldlM push (outside started ended value) =
      t.foldlM push (outside true ended (value ++ v)) := by
  rw [quote_read, body_taken hv hended]
  rfl

theorem blanks_read (blanks : Blanks) (ended : Bool) (value t : Text) :
    (blanks.text ++ t).foldlM push (outside true ended value) =
      t.foldlM push (outside true true value) := by
  have hstep : ∀ (c : Char) (ended : Bool), isWhitespace c = true →
      (outside true ended value).push c = .ok (outside true true value) := by
    intro c ended hc
    obtain ⟨hquote, hescape⟩ := unquoted_of_blank hc
    simp [push, outside, hquote, hescape, hc]
  have hall : ∀ text : Text, (∀ c ∈ text, isWhitespace c = true) →
      (text ++ t).foldlM push (outside true true value) =
        t.foldlM push (outside true true value) := by
    intro text hwhite
    induction text with
    | nil => rfl
    | cons c text ih =>
      rw [cons_append, foldlM_cons, hstep c true (hwhite c mem_cons_self)]
      exact ih fun d hd => hwhite d (mem_cons_of_mem _ hd)
  obtain ⟨text, hne, hwhite⟩ := blanks
  obtain ⟨c, text, rfl⟩ := exists_cons_of_ne_nil hne
  show ((c :: (text ++ t)).foldlM push (outside true ended value)) = _
  rw [foldlM_cons, hstep c ended (hwhite c mem_cons_self)]
  exact hall text fun d hd => hwhite d (mem_cons_of_mem _ hd)

/-- `parse_scalar` of one exported value without a backslash. -/
theorem parseScalar_quote (hv : '\\' ∉ v) : parseScalar (quote v) = .ok v := by
  have htrim := trim_printSpaced v []
  have hread := quote_taken hv (.inl rfl : false = false ∨ _) [] false []
  rw [printSpaced, flatMap_nil, append_nil] at htrim
  rw [append_nil] at hread
  show (do
    let s ← (trim (quote v)).foldlM push (outside false false [])
    if !s.started || s.quoted || s.escaped then
      error "scheduled UCI scalar is incomplete"
    else .ok s.value) = _
  rw [htrim, hread]
  rfl

def spent (s : ScalarState) : ℕ :=
  2 * s.value.count '\\' + s.value.count '\'' + s.escaped.toNat

theorem push_spent {s s' : ScalarState} {c : Char} (h : s.push c = .ok s') :
    spent s' ≤ spent s + [c].count '\\' := by
  unfold push at h
  split at h
  · rename_i hescaped
    rw [← ok.inj h]
    simp only [spent, hescaped, count_append, count_singleton, Bool.toNat_true, Bool.toNat_false]
    by_cases hback : c = '\\'
    · subst hback
      simp
      omega
    · by_cases hquote : c = '\''
      · subst hquote
        simp
        omega
      · simp [hback, hquote]
  · split at h
    · rename_i hescaped hc
      rw [← ok.inj h]
      simp [spent, eq_of_beq hc, hescaped]
    · rename_i hescaped hback
      split at h
      · rw [← ok.inj h]
        exact Nat.le_add_right _ _
      · rename_i hquote
        simp only [beq_iff_eq] at hback hquote
        split at h
        · rw [← ok.inj h]
          split <;> exact Nat.le_add_right _ _
        · split at h
          · cases h
          · rw [← ok.inj h]
            simp [spent, hback, hquote]

theorem foldlM_spent {t : Text} {s s' : ScalarState}
    (h : t.foldlM push s = .ok s') : spent s' ≤ spent s + t.count '\\' := by
  induction t generalizing s with
  | nil =>
    rw [← ok.inj h]
    exact Nat.le_add_right _ _
  | cons c t ih =>
    rw [foldlM_cons, bind_ok] at h
    obtain ⟨mid, hmid, h⟩ := h
    have hfirst := push_spent hmid
    have hrest := ih h
    have hsplit : (c :: t).count '\\' = [c].count '\\' + t.count '\\' := by
      rw [← count_append, singleton_append]
    omega

theorem count_quote (v : Text) : (quote v).count '\\' = v.count '\\' + v.count '\'' := by
  have hbody : (v.flatMap quotedChar).count '\\' = v.count '\\' + v.count '\'' := by
    induction v with
    | nil => rfl
    | cons c v ih =>
      rw [flatMap_cons, count_append, ih, quotedChar]
      by_cases hquote : c = '\''
      · subst hquote
        simp
        omega
      · simp [hquote, count_cons]
        omega
  simp [quote, hbody]

/-- **A value with a backslash** is not what `parse_scalar` reads. -/
theorem parseScalar_quote_iff (v : Text) : parseScalar (quote v) = .ok v ↔ '\\' ∉ v := by
  refine ⟨fun h hmem => ?_, parseScalar_quote⟩
  have htrim := trim_printSpaced v []
  rw [printSpaced, flatMap_nil, append_nil] at htrim
  unfold parseScalar at h
  rw [htrim, bind_ok] at h
  obtain ⟨s, hs, h⟩ := h
  have hspent := foldlM_spent hs
  have hvalue : s.value = v := by
    split at h
    · cases h
    · exact ok.inj h
  have hcount : 0 < v.count '\\' := count_pos_iff.mpr hmem
  rw [count_quote] at hspent
  simp only [spent, hvalue, count_nil] at hspent
  simp only [Bool.toNat_false, Nat.mul_zero, Nat.zero_add] at hspent
  omega

variable {rest : List (Blanks × Text)}

theorem rest_taken (hrest : ∀ r ∈ rest, ∀ c ∈ r.2, c = '\'') (ended : Bool) (value : Text) :
    ∃ ended' value',
      (rest.flatMap fun r => r.1.text ++ quote r.2).foldlM push
        (outside true ended value) = .ok (outside true ended' value') := by
  induction rest generalizing ended value with
  | nil => exact ⟨ended, value, rfl⟩
  | cons r rest ih =>
    have hr := hrest r mem_cons_self
    have hback : '\\' ∉ r.2 := fun hmem => absurd (hr _ hmem) (by decide)
    obtain ⟨ended', value', h⟩ :=
      ih (fun s hs => hrest s (mem_cons_of_mem _ hs)) true (value ++ r.2)
    refine ⟨ended', value', ?_⟩
    rw [flatMap_cons, append_assoc, blanks_read, quote_taken hback (.inr hr), h]

theorem rest_refused (hback : ∀ r ∈ rest, '\\' ∉ r.2) (hother : ∃ r ∈ rest, ∃ c ∈ r.2, c ≠ '\'')
    (ended : Bool) (value : Text) :
    (rest.flatMap fun r => r.1.text ++ quote r.2).foldlM push
      (outside true ended value) = .error "scheduled UCI option contains multiple values" := by
  induction rest generalizing ended value with
  | nil =>
    obtain ⟨r, hr, _⟩ := hother
    cases hr
  | cons r rest ih =>
    have hr := hback r mem_cons_self
    rw [flatMap_cons, append_assoc, blanks_read]
    by_cases hfirst : ∃ c ∈ r.2, c ≠ '\''
    · rw [quote_read, body_refused hr hfirst]
      rfl
    · have hapostrophes : ∀ c ∈ r.2, c = '\'' := by
        intro c hc
        by_contra hne
        exact hfirst ⟨c, hc, hne⟩
      have hlater : ∃ s ∈ rest, ∃ c ∈ s.2, c ≠ '\'' := by
        obtain ⟨s, hs, hc⟩ := hother
        rcases mem_cons.mp hs with rfl | hs
        · exact absurd hc hfirst
        · exact ⟨s, hs, hc⟩
      rw [quote_taken hr (.inr hapostrophes)]
      exact ih (fun s hs => hback s (mem_cons_of_mem _ hs)) hlater true _

/-- **Values without a backslash** are refused for a character after the first that is not an
apostrophe. -/
theorem parseScalar_printSpaced_iff {value : Text} (hvalue : '\\' ∉ value)
    (hback : ∀ r ∈ rest, '\\' ∉ r.2) :
    (∃ message, parseScalar (printSpaced value rest) = .error message) ↔
      ∃ r ∈ rest, ∃ c ∈ r.2, c ≠ '\'' := by
  have hread : parseScalar (printSpaced value rest) = (do
      let s ← (rest.flatMap fun r => r.1.text ++ quote r.2).foldlM push (outside true false value)
      if !s.started || s.quoted || s.escaped then
        error "scheduled UCI scalar is incomplete"
      else .ok s.value) := by
    unfold parseScalar
    rw [trim_printSpaced, printSpaced]
    show (do
      let s ← (quote value ++ _).foldlM push (outside false false [])
      if !s.started || s.quoted || s.escaped then
        error "scheduled UCI scalar is incomplete"
      else .ok s.value) = _
    rw [quote_taken hvalue (.inl rfl), nil_append]
  rw [hread]
  constructor
  · rintro ⟨message, h⟩
    by_contra hnone
    have hall : ∀ r ∈ rest, ∀ c ∈ r.2, c = '\'' := by
      intro r hr c hc
      by_contra hne
      exact hnone ⟨r, hr, c, hc, hne⟩
    obtain ⟨ended', value', hok⟩ := rest_taken hall false value
    rw [hok] at h
    cases h
  · intro hother
    rw [rest_refused hback hother]
    exact ⟨_, rfl⟩

/-- What the two readers owe to values and to a list of them. -/
structure ReadersAgree (value : Text) (rest : List (Blanks × Text)) : Prop where
  words : parseUciValues (printSpaced value rest) = value :: rest.map snd
  alone : ∀ v ∈ value :: rest.map snd,
    parseUciValues (quote v) = [v] ∧ parseScalar (quote v) = .ok v
  refused : rest ≠ [] → ∃ message, parseScalar (printSpaced value rest) = .error message

/-- **The readers agree** on values without backslashes, of which one after the first is more than
apostrophes where there are several. -/
theorem readersAgree_iff (value : Text) (rest : List (Blanks × Text)) :
    ReadersAgree value rest ↔
      (∀ v ∈ value :: rest.map snd, '\\' ∉ v) ∧ (rest = [] ∨ ∃ r ∈ rest, ∃ c ∈ r.2, c ≠ '\'') := by
  have hparts : (∀ v ∈ value :: rest.map snd, '\\' ∉ v) →
      '\\' ∉ value ∧ ∀ r ∈ rest, '\\' ∉ r.2 := fun h =>
    ⟨h value mem_cons_self, fun r hr => h r.2 (mem_cons_of_mem _ (mem_map_of_mem hr))⟩
  constructor
  · rintro ⟨_, halone, hrefused⟩
    have hback : ∀ v ∈ value :: rest.map snd, '\\' ∉ v := fun v hv =>
      (parseScalar_quote_iff v).mp (halone v hv).2
    refine ⟨hback, ?_⟩
    by_cases hrest : rest = []
    · exact .inl hrest
    · exact .inr ((parseScalar_printSpaced_iff (hparts hback).1 (hparts hback).2).mp
        (hrefused hrest))
  · rintro ⟨hback, hsecond⟩
    refine ⟨parseUciValues_printSpaced value rest, fun v hv => ⟨?_, ?_⟩, fun hrest => ?_⟩
    · have hone := parseUciValues_printSpaced v []
      rwa [printSpaced, flatMap_nil, append_nil] at hone
    · exact parseScalar_quote (hback v hv)
    · exact (parseScalar_printSpaced_iff (hparts hback).1 (hparts hback).2).mpr
        (hsecond.resolve_left hrest)

theorem readers_disagree :
    (parseUciValues (quote (lit "a\\b")) = [lit "a\\b"] ∧
      (parseScalar (quote (lit "a\\b"))).toOption = some (lit "ab")) ∧
    (parseUciValues (printSpaced (lit "one") [(Blanks.one, [])]) = [lit "one", []] ∧
      (parseScalar (printSpaced (lit "one") [(Blanks.one, [])])).toOption = some (lit "one")) := by
  refine ⟨⟨?_, ?_⟩, ?_, ?_⟩ <;> decide +kernel

end CakeAutorate.SchedulerConfig
