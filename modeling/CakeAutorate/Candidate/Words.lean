/-
# The text of a section

`parse_uci_values` and the reading loop of `Config::from_uci_text` in `main.rs`, and the text that
`uci show` prints: a line for each option, with its values between apostrophes.  A value that holds
no newline is read back as it is, whatever else stands in it.  A newline ends the line, and what
follows it is read as a line of its own.
-/

import CakeAutorate.Routing.Attestation

namespace CakeAutorate.Candidate

open Wire Protocol Routing List Function Prod

abbrev Entry := Text × List Text

def quotedChar (c : Char) : Text := if c = '\'' then ['\'', '\\', '\'', '\''] else [c]

def quote (value : Text) : Text := '\'' :: value.flatMap quotedChar ++ ['\'']

def printValues (values : List Text) : Text := [' '].intercalate (values.map quote)

def sectionPath (name : Text) : Text := lit "cake-autorate." ++ name ++ ['.']

def optionLine (name : Text) (o : Entry) : Text :=
  sectionPath name ++ o.1 ++ '=' :: printValues o.2

def sectionLine (name : Text) : Text := lit "cake-autorate." ++ name ++ lit "=cake_autorate"

/-- `uci show` of a section. -/
def uciShow (name : Text) (options : List Entry) : Text :=
  (sectionLine name :: options.map (optionLine name)).flatMap fun line => line ++ ['\n']

/-- The loop of `parse_uci_values`. -/
def parseWords (inQuote started : Bool) (current : Text) : Text → List Text
  | [] => if started then [current] else []
  | c :: rest =>
    if inQuote then
      if c = '\'' then parseWords false true current rest
      else parseWords true true (current ++ [c]) rest
    else if c = '\'' then parseWords true true current rest
    else if c = '\\' then
      match rest with
      | [] => [current ++ ['\\']]
      | d :: rest => parseWords false true (current ++ [d]) rest
    else if isWhitespace c then
      if started then current :: parseWords false false [] rest
      else parseWords false false current rest
    else parseWords false true (current ++ [c]) rest

def parseUciValues (value : Text) : List Text := parseWords false false [] (trim value)

/-- The options that a `Config` is made of: the first value and all values. -/
structure Options where
  single : String → Option Text
  lists : String → Option (List Text)

def Options.empty : Options := ⟨fun _ => none, fun _ => none⟩

/-- `single.insert(..)` and `lists.entry(..).or_default().extend(..)`. -/
def Options.extend (o : Options) (key value : Text) (values : List Text) : Options where
  single := update o.single (String.ofList key) (some value)
  lists := update o.lists (String.ofList key)
    (some ((o.lists (String.ofList key)).getD [] ++ values))

/-- `Config::from_uci_text`, one line. -/
def readLine (path : Text) (o : Options) (line : Text) : Options :=
  match splitOnce '=' line with
  | none => o
  | some (left, raw) =>
    match stripPrefix path left with
    | none => o
    | some key =>
      if key.isEmpty || key.contains '.' then o
      else match parseUciValues raw with
        | [] => o
        | value :: rest => o.extend key value (value :: rest)

/-- `Config::from_uci_text`, the options. -/
def readText (name data : Text) : Options :=
  (lines data).foldl (readLine (sectionPath name)) .empty

section Steps

variable (started : Bool) (current rest : Text)

theorem parseWords_close :
    parseWords true started current ('\'' :: rest) = parseWords false true current rest := by
  rw [parseWords.eq_def]
  simp

theorem parseWords_inside {c : Char} (hc : c ≠ '\'') :
    parseWords true started current (c :: rest) = parseWords true true (current ++ [c]) rest := by
  rw [parseWords.eq_def]
  simp [hc]

theorem parseWords_open :
    parseWords false started current ('\'' :: rest) = parseWords true true current rest := by
  rw [parseWords.eq_def]
  simp

theorem parseWords_escape (c : Char) :
    parseWords false started current ('\\' :: c :: rest) =
      parseWords false true (current ++ [c]) rest := by
  rw [parseWords.eq_def]
  simp

theorem parseWords_blank :
    parseWords false true current (' ' :: rest) = current :: parseWords false false [] rest := by
  have hblank : isWhitespace ' ' = true := by decide
  rw [parseWords.eq_def]
  simp [hblank]

end Steps

theorem parseWords_quoted (value current rest : Text) :
    parseWords true true current (value.flatMap quotedChar ++ '\'' :: rest) =
      parseWords false true (current ++ value) rest := by
  induction value generalizing current with
  | nil =>
    rw [append_nil]
    exact parseWords_close _ _ _
  | cons c value ih =>
    rw [flatMap_cons, append_assoc, quotedChar]
    by_cases hc : c = '\''
    · rw [if_pos hc, hc]
      show parseWords true true current ('\'' :: '\\' :: '\'' :: '\'' :: _) = _
      rw [parseWords_close, parseWords_escape, parseWords_open]
      exact (ih _).trans (congrArg (parseWords false true · rest) (append_assoc _ _ _))
    · rw [if_neg hc]
      show parseWords true true current (c :: _) = _
      rw [parseWords_inside _ _ _ hc]
      exact (ih _).trans (congrArg (parseWords false true · rest) (append_assoc _ _ _))

theorem parseWords_quote (value rest : Text) :
    parseWords false false [] (quote value ++ rest) = parseWords false true value rest := by
  rw [quote, append_assoc, cons_append, parseWords_open]
  exact parseWords_quoted value [] rest

theorem printValues_cons_cons (value next : Text) (rest : List Text) :
    printValues (value :: next :: rest) = quote value ++ ' ' :: printValues (next :: rest) := by
  simp [printValues, List.intercalate]

/-- **Printed values** are read back. -/
theorem parseWords_printValues (values : List Text) :
    parseWords false false [] (printValues values) = values := by
  induction values with
  | nil => rfl
  | cons value values ih =>
    cases values with
    | nil =>
      have hone := parseWords_quote value []
      rw [append_nil] at hone
      rw [printValues, map_singleton, intercalate_singleton, hone]
      rfl
    | cons next rest => rw [printValues_cons_cons, parseWords_quote, parseWords_blank, ih]

variable {t : Text}

theorem trim_eq (hhead : ∀ c, t.head? = some c → isWhitespace c = false)
    (hlast : ∀ c, t.getLast? = some c → isWhitespace c = false) : trim t = t := by
  have hdrop : ∀ s : Text, (∀ c, s.head? = some c → isWhitespace c = false) →
      s.dropWhile isWhitespace = s := by
    intro s hs
    cases s with
    | nil => rfl
    | cons c s => rw [dropWhile_cons_of_neg (by simp [hs c rfl])]
  rw [trim, hdrop t hhead, hdrop t.reverse, reverse_reverse]
  intro c hc
  rw [head?_reverse] at hc
  exact hlast c hc

theorem quote_ends (value : Text) : ∃ s, quote value = s ++ ['\''] := ⟨_, rfl⟩

theorem printValues_ends {values : List Text} (hne : values ≠ []) :
    (printValues values).head? = some '\'' ∧ (printValues values).getLast? = some '\'' := by
  have hlast : ∀ (value : Text) (rest : List Text),
      ∃ s, printValues (value :: rest) = s ++ ['\''] := by
    intro value rest
    induction rest generalizing value with
    | nil =>
      obtain ⟨s, hs⟩ := quote_ends value
      exact ⟨s, by simp [printValues, hs]⟩
    | cons next rest ih =>
      obtain ⟨s, hs⟩ := ih next
      refine ⟨quote value ++ ' ' :: s, ?_⟩
      rw [printValues_cons_cons, hs]
      simp
  obtain ⟨value, rest, rfl⟩ := exists_cons_of_ne_nil hne
  constructor
  · cases rest <;> simp [printValues, quote, List.intercalate]
  · obtain ⟨s, hs⟩ := hlast value rest
    rw [hs, getLast?_concat]

/-- **`parse_uci_values`** of what was printed. -/
theorem parseUciValues_printValues (values : List Text) :
    parseUciValues (printValues values) = values := by
  cases hvalues : values with
  | nil => rfl
  | cons value rest =>
    have hapostrophe : isWhitespace '\'' = false := by decide
    obtain ⟨hhead, hlast⟩ := printValues_ends (cons_ne_nil value rest)
    have htrim : trim (printValues (value :: rest)) = printValues (value :: rest) := by
      refine trim_eq ?_ ?_
      · intro c hc
        rw [hhead] at hc
        rw [← Option.some.inj hc]
        exact hapostrophe
      · intro c hc
        rw [hlast] at hc
        rw [← Option.some.inj hc]
        exact hapostrophe
    rw [parseUciValues, htrim, parseWords_printValues]

/-- The options of entries with different keys. -/
structure Holds (o : Options) (entries : List Entry) : Prop where
  single : ∀ e ∈ entries, o.single (String.ofList e.1) = e.2.head?
  lists : ∀ e ∈ entries, o.lists (String.ofList e.1) = some e.2
  none : ∀ key, key ∉ entries.map fst →
    o.single (String.ofList key) = none ∧ o.lists (String.ofList key) = none

theorem Holds.unique {o o' : Options} {entries entries' : List Entry} (h : Holds o entries)
    (h' : Holds o' entries') (hperm : entries.Perm entries') : o = o' := by
  have hat : ∀ key, o.single key = o'.single key ∧ o.lists key = o'.lists key := by
    intro key
    obtain ⟨key, rfl⟩ : ∃ t, key = String.ofList t := ⟨key.toList, String.ofList_toList.symm⟩
    by_cases hkey : key ∈ entries.map fst
    · obtain ⟨e, he, rfl⟩ := mem_map.mp hkey
      have he' := hperm.mem_iff.mp he
      exact ⟨(h.single e he).trans (h'.single e he').symm,
        (h.lists e he).trans (h'.lists e he').symm⟩
    · obtain ⟨hsingle, hlists⟩ := h.none key hkey
      obtain ⟨hsingle', hlists'⟩ := h'.none key fun hmem =>
        hkey ((hperm.map fst).mem_iff.mpr hmem)
      exact ⟨hsingle.trans hsingle'.symm, hlists.trans hlists'.symm⟩
  cases o
  cases o'
  congr 1
  · exact funext fun key => (hat key).1
  · exact funext fun key => (hat key).2

theorem holds_empty : Holds .empty [] := by
  refine ⟨?_, ?_, fun _ _ => ⟨rfl, rfl⟩⟩
  · intro e he
    cases he
  · intro e he
    cases he

variable {entries : List Entry}

theorem Holds.concat {o o' : Options} {e : Entry} (h : Holds o entries)
    (hnew : e.1 ∉ entries.map fst)
    (hsingle : o'.single = update o.single (String.ofList e.1) e.2.head?)
    (hlists : o'.lists = update o.lists (String.ofList e.1) (some e.2)) :
    Holds o' (entries ++ [e]) := by
  have hne : ∀ d ∈ entries, String.ofList d.1 ≠ String.ofList e.1 := by
    intro d hd heq
    exact hnew (String.ofList_injective heq ▸ mem_map_of_mem hd)
  refine ⟨?_, ?_, ?_⟩
  · intro d hd
    rw [hsingle]
    rcases mem_append.mp hd with hd | hd
    · rw [update_of_ne (hne d hd)]
      exact h.single d hd
    · rw [mem_singleton.mp hd, update_self]
  · intro d hd
    rw [hlists]
    rcases mem_append.mp hd with hd | hd
    · rw [update_of_ne (hne d hd)]
      exact h.lists d hd
    · rw [mem_singleton.mp hd, update_self]
  · intro key hkey
    rw [map_append, mem_append, not_or] at hkey
    have hother : String.ofList key ≠ String.ofList e.1 := fun heq =>
      hkey.2 (by simp [String.ofList_injective heq])
    rw [hsingle, hlists, update_of_ne hother, update_of_ne hother]
    exact h.none key hkey.1

theorem holds_foldl {step : Options → Entry → Options} (hnodup : (entries.map fst).Nodup)
    (hstep : ∀ o e done, e ∈ entries → Holds o done → e.1 ∉ done.map fst →
      Holds (step o e) (done ++ [e])) :
    Holds (entries.foldl step .empty) entries := by
  have hfrom : ∀ (rest done : List Entry) (o : Options), entries = done ++ rest → Holds o done →
      Holds (rest.foldl step o) (done ++ rest) := by
    intro rest
    induction rest with
    | nil =>
      intro done o _ ho
      rw [append_nil]
      exact ho
    | cons e rest ih =>
      intro done o heq ho
      have hmem : e ∈ entries := by
        rw [heq]
        exact mem_append_right _ mem_cons_self
      have hnew : e.1 ∉ done.map fst := by
        rw [heq, map_append, nodup_append] at hnodup
        intro hin
        exact hnodup.2.2 _ hin _ mem_cons_self rfl
      have happend : done ++ e :: rest = (done ++ [e]) ++ rest := by simp
      rw [happend]
      exact ih (done ++ [e]) (step o e) (heq.trans happend) (hstep o e done hmem ho hnew)
  exact hfrom entries [] .empty rfl holds_empty

def isNameChar (c : Char) : Bool := isAsciiAlphanumeric c || c == '_'

theorem not_mem_name (ht : t.all isNameChar = true) {c : Char} (hc : isNameChar c = false) :
    c ∉ t := by
  intro hmem
  rw [all_eq_true.mp ht c hmem] at hc
  cases hc

variable {name : Text}

theorem readLine_sectionLine (hname : name.all isNameChar = true) (o : Options) :
    readLine (sectionPath name) o (sectionLine name) = o := by
  have hequal : '=' ∉ lit "cake-autorate." ++ name := by
    intro hmem
    rcases mem_append.mp hmem with hmem | hmem
    · exact absurd hmem (by decide)
    · exact not_mem_name hname (by decide) hmem
  have hsplit : splitOnce '=' (sectionLine name) =
      some (lit "cake-autorate." ++ name, lit "cake_autorate") :=
    splitOnce_append (lit "cake_autorate") hequal
  have hstrip : stripPrefix (sectionPath name) (lit "cake-autorate." ++ name) = none := by
    rw [stripPrefix, if_neg]
    intro hprefix
    have hlength := hprefix.length_le
    rw [sectionPath, length_append, length_singleton] at hlength
    omega
  simp [readLine, hsplit, hstrip]

theorem readLine_optionLine (hname : name.all isNameChar = true) (o : Options) {key value : Text}
    {rest : List Text} (hkey : key.all isNameChar = true) (hne : key ≠ []) :
    readLine (sectionPath name) o (optionLine name (key, value :: rest)) =
      o.extend key value (value :: rest) := by
  have hequal : '=' ∉ sectionPath name ++ key := by
    intro hmem
    rcases mem_append.mp hmem with hmem | hmem
    · rcases mem_append.mp hmem with hmem | hmem
      · rcases mem_append.mp hmem with hmem | hmem
        · exact absurd hmem (by decide)
        · exact not_mem_name hname (by decide) hmem
      · exact absurd hmem (by decide)
    · exact not_mem_name hkey (by decide) hmem
  have hdot : key.contains '.' = false := by
    have hnot := not_mem_name hkey (c := '.') (by decide)
    simpa using hnot
  have hempty : key.isEmpty = false := by simpa using hne
  have hsplit : splitOnce '=' (optionLine name (key, value :: rest)) =
      some (sectionPath name ++ key, printValues (value :: rest)) := splitOnce_append _ hequal
  simp only [readLine, hsplit, stripPrefix_append, hempty, hdot, Bool.or_false,
    Bool.false_eq_true, if_false, parseUciValues_printValues]

/-- An entry that libuci can hold: a name, and values. -/
structure Entry.Valid (e : Entry) : Prop where
  key : e.1.all isNameChar = true
  key_ne : e.1 ≠ []
  values : e.2 ≠ []

theorem newline_mem_printValues {values : List Text} (h : '\n' ∈ printValues values) :
    ∃ value ∈ values, '\n' ∈ value := by
  have hquote : ∀ value, '\n' ∈ quote value → '\n' ∈ value := by
    intro value hmem
    have hparts : '\n' ∈ value.flatMap quotedChar := by
      rcases mem_append.mp hmem with hmem | hmem
      · rcases mem_cons.mp hmem with hmem | hmem
        · exact absurd hmem (by decide)
        · exact hmem
      · exact absurd hmem (by decide)
    obtain ⟨c, hc, hin⟩ := mem_flatMap.mp hparts
    unfold quotedChar at hin
    by_cases hapostrophe : c = '\''
    · rw [if_pos hapostrophe] at hin
      exact absurd hin (by decide)
    · rw [if_neg hapostrophe] at hin
      exact mem_singleton.mp hin ▸ hc
  induction values with
  | nil => exact absurd h (by decide)
  | cons value rest ih =>
    cases rest with
    | nil =>
      rw [printValues, map_singleton, intercalate_singleton] at h
      exact ⟨value, mem_cons_self, hquote value h⟩
    | cons next rest =>
      rcases mem_append.mp h with h | h
      · exact ⟨value, mem_cons_self, hquote value h⟩
      · rcases mem_cons.mp h with h | h
        · exact absurd h (by decide)
        · obtain ⟨v, hv, hin⟩ := ih h
          exact ⟨v, mem_cons_of_mem _ hv, hin⟩

/-- **A printed section** without a newline in a value is read as it is. -/
theorem holds_readText (hname : name.all isNameChar = true) (hvalid : ∀ e ∈ entries, e.Valid)
    (hnodup : (entries.map fst).Nodup) (hnewline : ∀ e ∈ entries, ∀ value ∈ e.2, '\n' ∉ value) :
    Holds (readText name (uciShow name entries)) entries := by
  have hpath : '\n' ∉ sectionPath name := by
    intro hmem
    rcases mem_append.mp hmem with hmem | hmem
    · rcases mem_append.mp hmem with hmem | hmem
      · exact absurd hmem (by decide)
      · exact not_mem_name hname (by decide) hmem
    · exact absurd hmem (by decide)
  have hlines : lines (uciShow name entries) = sectionLine name :: entries.map (optionLine name) := by
    refine lines_printed ?_ ?_
    · intro l hl hmem
      rcases mem_cons.mp hl with rfl | hl
      · rcases mem_append.mp hmem with hmem | hmem
        · exact hpath (mem_append_left _ hmem)
        · exact absurd hmem (by decide)
      · obtain ⟨e, he, rfl⟩ := mem_map.mp hl
        rcases mem_append.mp hmem with hmem | hmem
        · rcases mem_append.mp hmem with hmem | hmem
          · exact hpath hmem
          · exact not_mem_name (hvalid e he).key (by decide) hmem
        · rcases mem_cons.mp hmem with hmem | hmem
          · exact absurd hmem (by decide)
          · obtain ⟨value, hvalue, hin⟩ := newline_mem_printValues hmem
            exact hnewline e he value hvalue hin
    · intro l hl hlast
      rcases mem_cons.mp hl with rfl | hl
      · rw [sectionLine, getLast?_append_of_ne_nil _ (by decide)] at hlast
        exact absurd hlast (by decide)
      · obtain ⟨e, he, rfl⟩ := mem_map.mp hl
        have hends := (printValues_ends (hvalid e he).values).2
        have hne : printValues e.2 ≠ [] := by
          intro hnil
          rw [hnil] at hends
          cases hends
        rw [optionLine, getLast?_append_of_ne_nil _ (cons_ne_nil _ _),
          getLast?_cons_of_ne_nil hne, hends] at hlast
        exact absurd hlast (by decide)
  rw [readText, hlines, foldl_cons, readLine_sectionLine hname, foldl_map]
  refine holds_foldl hnodup fun o e done he ho hnew => ?_
  obtain ⟨key, values⟩ := e
  obtain ⟨hkey, hne, hvalues⟩ := hvalid _ he
  obtain ⟨value, rest, rfl⟩ := exists_cons_of_ne_nil hvalues
  rw [readLine_optionLine hname o hkey hne]
  refine ho.concat hnew rfl ?_
  show update o.lists (String.ofList key)
    (some ((o.lists (String.ofList key)).getD [] ++ value :: rest)) = _
  rw [(ho.none key hnew).2]
  rfl

theorem newline_notMem_lines {line : Text} (h : line ∈ lines t) : '\n' ∉ line := by
  have hfrom : ∀ (t cur : Text), '\n' ∉ cur → ∀ line ∈ linesFrom cur t, '\n' ∉ line := by
    intro t
    induction t with
    | nil =>
      intro cur hcur line hline
      unfold linesFrom at hline
      split at hline
      · cases hline
      · rw [mem_singleton.mp hline, mem_reverse]
        exact hcur
    | cons c t ih =>
      intro cur hcur line hline
      unfold linesFrom at hline
      split at hline
      · rcases mem_cons.mp hline with rfl | hline
        · intro hmem
          unfold chomp at hmem
          split at hmem
          · exact hcur (mem_reverse.mp (mem_of_mem_dropLast hmem))
          · exact hcur (mem_reverse.mp hmem)
        · exact ih [] (not_mem_nil) line hline
      · rename_i hc
        refine ih (c :: cur) ?_ line hline
        intro hmem
        rcases mem_cons.mp hmem with hmem | hmem
        · exact hc hmem.symm
        · exact hcur hmem
  exact hfrom t [] not_mem_nil line h

theorem mem_of_mem_trim {c : Char} (h : c ∈ trim t) : c ∈ t := by
  have hdrop : ∀ s : Text, c ∈ s.dropWhile isWhitespace → c ∈ s := fun s hs =>
    (dropWhile_suffix _).subset hs
  exact hdrop t (mem_reverse.mp (hdrop _ (mem_reverse.mp h)))

theorem newline_notMem_push {current : Text} {c : Char} (hcurrent : '\n' ∉ current)
    (hc : '\n' ≠ c) : '\n' ∉ current ++ [c] := by
  intro hmem
  rcases mem_append.mp hmem with hmem | hmem
  · exact hcurrent hmem
  · exact hc (mem_singleton.mp hmem)

theorem newline_notMem_words (inQuote started : Bool) (current t : Text) (ht : '\n' ∉ t)
    (hcurrent : '\n' ∉ current) {value : Text} (h : value ∈ parseWords inQuote started current t) :
    '\n' ∉ value := by
  revert ht hcurrent h
  fun_induction parseWords inQuote started current t with
  | case1 =>
    intro _ hcurrent h
    rw [mem_singleton.mp h]
    exact hcurrent
  | case2 =>
    intro _ _ h
    cases h
  | case3 _ _ _ ih | case5 _ _ _ _ _ ih | case9 _ _ _ _ _ _ _ _ _ _ ih =>
    intro ht hcurrent h
    exact ih (fun hmem => ht (mem_cons_of_mem _ hmem)) hcurrent h
  | case4 _ _ _ _ _ ih | case10 _ _ _ _ _ _ _ _ _ ih =>
    intro ht hcurrent h
    rw [mem_cons, not_or] at ht
    exact ih ht.2 (newline_notMem_push hcurrent ht.1) h
  | case6 =>
    intro _ hcurrent h
    rw [mem_singleton.mp h]
    exact newline_notMem_push hcurrent (by decide)
  | case7 _ _ _ _ _ _ _ ih =>
    intro ht hcurrent h
    rw [mem_cons, mem_cons, not_or, not_or] at ht
    exact ih ht.2.2 (newline_notMem_push hcurrent ht.2.1) h
  | case8 _ _ _ _ _ _ _ _ ih =>
    intro ht hcurrent h
    rcases mem_cons.mp h with rfl | h
    · exact hcurrent
    · exact ih (fun hmem => ht (mem_cons_of_mem _ hmem)) not_mem_nil h

/-- A line that is read leaves the options as they are, or adds the values behind its `=`. -/
theorem readLine_cases (path line : Text) (o : Options) :
    readLine path o line = o ∨ ∃ left raw key value rest, splitOnce '=' line = some (left, raw) ∧
      parseUciValues raw = value :: rest ∧
        readLine path o line = o.extend key value (value :: rest) := by
  cases hsplit : splitOnce '=' line with
  | none =>
    left
    simp only [readLine, hsplit]
  | some parts =>
    obtain ⟨left, raw⟩ := parts
    cases hstrip : stripPrefix path left with
    | none =>
      left
      simp only [readLine, hsplit, hstrip]
    | some key =>
      by_cases hkey : (key.isEmpty || key.contains '.') = true
      · left
        simp only [readLine, hsplit, hstrip, if_pos hkey]
      · cases hvalues : parseUciValues raw with
        | nil =>
          left
          simp only [readLine, hsplit, hstrip, if_neg hkey, hvalues]
        | cons value rest =>
          refine .inr ⟨left, raw, key, value, rest, rfl, hvalues, ?_⟩
          simp only [readLine, hsplit, hstrip, if_neg hkey, hvalues]

def Plain (o : Options) : Prop :=
  ∀ key values, o.lists key = some values → ∀ value ∈ values, '\n' ∉ value

theorem Plain.readLine {o : Options} (h : Plain o) {line : Text} (hline : '\n' ∉ line)
    (path : Text) : Plain (readLine path o line) := by
  rcases readLine_cases path line o with hsame | ⟨left, raw, key, value, rest, hsplit, hparse, hread⟩
  · rw [hsame]
    exact h
  · have hraw : '\n' ∉ trim raw := by
      intro hmem
      refine hline ?_
      rw [splitOnce_eq_some hsplit]
      exact mem_append_right _ (mem_cons_of_mem _ (mem_of_mem_trim hmem))
    have hnew : ∀ v ∈ value :: rest, '\n' ∉ v := by
      intro v hv
      rw [← hparse] at hv
      exact newline_notMem_words false false [] (trim raw) hraw not_mem_nil hv
    rw [hread]
    intro k values hk v hv
    by_cases hkey : k = String.ofList key
    · simp only [hkey, Options.extend, update_self] at hk
      rw [← Option.some.inj hk] at hv
      rcases mem_append.mp hv with hv | hv
      · cases hlists : o.lists (String.ofList key) with
        | none =>
          rw [hlists] at hv
          cases hv
        | some old =>
          rw [hlists] at hv
          exact h (String.ofList key) old hlists v hv
      · exact hnew v hv
    · simp only [Options.extend, update_of_ne hkey] at hk
      exact h k values hk v hv

/-- **A value that is read** holds no newline. -/
theorem plain_readText (name data : Text) : Plain (readText name data) := by
  have hfrom : ∀ (ls : List Text) (o : Options), (∀ l ∈ ls, '\n' ∉ l) → Plain o →
      Plain (ls.foldl (readLine (sectionPath name)) o) := by
    intro ls
    induction ls with
    | nil => exact fun _ _ ho => ho
    | cons l ls ih =>
      intro o hls ho
      exact ih _ (fun l' h' => hls l' (mem_cons_of_mem _ h')) (ho.readLine (hls l mem_cons_self) _)
  refine hfrom (lines data) .empty (fun l hl => newline_notMem_lines hl) ?_
  intro key values hnone
  cases hnone

end CakeAutorate.Candidate
