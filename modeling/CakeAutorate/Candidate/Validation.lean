/-
# The check of a candidate

`validate_value_with` of `config_candidate.rs` on a JSON value: the sections that somebody wants to
write, each with the values of its options.  A candidate is valid when no section has an issue.

A section that is valid and in which no value holds a newline is read by the daemon as it was
checked.  A newline is not refused, and what follows it is read as an option of its own.
-/

import CakeAutorate.Candidate.Config
import CakeAutorate.Protocol.RoundTrip

namespace CakeAutorate.Candidate

open Wire Protocol Except String Prod List Option

/-- `serde_json::Value`; a number as the `u64` it is, if it is one. -/
inductive Value where
  | null
  | bool (b : Bool)
  | number (n : Option ℕ)
  | string (t : Text)
  | array (items : List Value)
  | object (fields : List (Text × Value))

namespace Value

def get (v : Value) (key : String) : Option Value :=
  match v with
  | .object fields => (fields.find? fun f => f.1 = lit key).map snd
  | _ => none

def asU64 : Value → Option ℕ
  | .number n => n
  | _ => none

def asStr : Value → Option Text
  | .string t => some t
  | _ => none

def asArray : Value → Option (List Value)
  | .array items => some items
  | _ => none

def asObject : Value → Option (List (Text × Value))
  | .object fields => some fields
  | _ => none

end Value

def schemaVersion : ℕ := 1

def maxSections : ℕ := 64

def maxOptions : ℕ := 256

def maxValueBytes : ℕ := 4096

def maxListItems : ℕ := 256

def safeName (name : Text) : Bool :=
  !name.isEmpty && decide (byteLength name ≤ 32) && name.all isNameChar

def strings (value : Value) : Except String (List Text) := do
  let values ← match value with
    | .string value => .ok [value]
    | .array values =>
      if values.length ≤ maxListItems then
        orError (values.mapM Value.asStr) "candidate-option-type-invalid"
      else .error "candidate-option-type-invalid"
    | _ => .error "candidate-option-type-invalid"
  check (!values.any fun value => decide (maxValueBytes < byteLength value) || value.contains '\x00')
    "candidate-option-value-invalid"
  return values

def readOptions (nameInvalid : String) : List (Text × Value) → Except String (List Entry)
  | [] => .ok []
  | (key, value) :: rest => do
    check (!key.isEmpty && decide (byteLength key ≤ 64) && key.all isNameChar) nameInvalid
    let values ← strings value
    let entries ← readOptions nameInvalid rest
    return (key, values) :: entries

def optionFields (section_ : Value) (invalid : String) : Except String (List (Text × Value)) :=
  orError (((section_.get "options").bind Value.asObject).filter fun options =>
    decide (options.length ≤ maxOptions)) invalid

def sectionName (section_ : Value) (invalid : String) : Except String Text :=
  orError (((section_.get "name").bind Value.asStr).filter safeName) invalid

def readQueues (sqm : List (Text × List Entry)) :
    List Value → Except String (List (Text × List Entry))
  | [] => .ok sqm
  | queue :: rest => do
    let name ← sectionName queue "candidate-sqm-name-invalid"
    let fields ← optionFields queue "candidate-sqm-options-invalid"
    let options ← readOptions "candidate-sqm-option-name-invalid" fields
    check (!(sqm.map fst).contains name) "candidate-sqm-section-duplicate"
    readQueues (sqm ++ [(name, options)]) rest

/-- The options of a candidate as the maps of `validate_value_with`. -/
def Options.put (o : Options) (e : Entry) : Options where
  single := Function.update o.single (ofList e.1) (e.2.head?.or (o.single (ofList e.1)))
  lists := Function.update o.lists (ofList e.1) (some e.2)

/-- `single` and `lists` of a section. -/
def optionsOf (entries : List Entry) : Options := entries.foldl .put .empty

/-- An entry of `errors`. -/
structure Issue where
  instance_ : Text
  message : String

/-- The answer: a failure, or what was found. -/
inductive Verdict where
  | failure (code : String)
  | checked (requestId : Text) (instances : ℕ) (errors : List Issue)

/-- The field `valid`. -/
def Verdict.valid : Verdict → Bool
  | .failure _ => false
  | .checked _ _ errors => errors.isEmpty

def graphHistoryMinBudgetKib : ℕ := 256

def graphHistoryHardMaxKib : ℕ := 100 * 1024

def globalIssues (globals : List (Text × Value)) : List Issue :=
  match (Value.object globals).get "graph_history_ram_budget_kib" with
  | none => []
  | some budget =>
    let inside := fun value => match parseInteger 64 value with
      | .ok n => decide (graphHistoryMinBudgetKib ≤ n) && decide (n ≤ graphHistoryHardMaxKib)
      | .error _ => false
    if budget.asStr.any fun value => value.isEmpty || value == lit "auto" || inside value then []
    else [⟨lit "globals", "graph_history_ram_budget_kib must be auto or between " ++
      toString graphHistoryMinBudgetKib ++ " and " ++ toString graphHistoryHardMaxKib⟩]

section Check

variable {F : Type} (b : Build F) (mqSupported : String → Except String Bool)
  (sqm : List (Text × List Entry))

def queueOption (target : Text) (key : String) : Option Text :=
  ((sqm.find? fun q => q.1 = target).bind fun q =>
    (q.2.find? fun e => e.1 = lit key).bind fun e => e.2.head?)

def sqmOptions (entries : List Entry) : Sqm.Options :=
  entries.foldl (fun options e => match e.2.head? with
    | none => options
    | some value => options.insert (ofList e.1) (ofList value)) ∅

def pingerSupported (method : Text) : Bool :=
  [lit "fping", lit "fping-ts", lit "tsping", lit "ping"].contains method
    || (b.calibration && method == lit "irtt")

def checkQueue (name : Text) (entries : List Entry) : Except String Unit := do
  let single := (optionsOf entries).single
  let target := ((single "sqm_section").filter fun name => !name.isEmpty).getD (lit "cake_" ++ name)
  check (safeName target) "sqm_section must be a safe UCI section name"
  check (!(queueOption sqm target "_cake_autorate_managed").any fun owner =>
      !owner.isEmpty && owner != name)
    "requested SQM section belongs to another CAKE Autorate instance"
  let _ ← Sqm.validate (sqmOptions entries)
    ((queueOption sqm target "use_mq").map ofList) mqSupported
  return ()

def checkSection (name : Text) (entries : List Entry) : Except String Unit := do
  let single := (optionsOf entries).single
  check ((single "pinger_method").all (pingerSupported b))
    "pinger_method is unsupported for this package variant"
  let cfg ← fromUciValues b name (optionsOf entries)
  b.validate cfg
  let managed ← match single "manage_sqm" with
    | none => .ok true
    | some value => Sqm.parseBool (ofList value)
  if managed then checkQueue mqSupported sqm name entries else return ()

def checkSections (seen : List Text) (errors : List Issue) :
    List Value → Except String (List Text × List Issue)
  | [] => .ok (seen, errors)
  | section_ :: rest => do
    let name ← sectionName section_ "candidate-section-name-invalid"
    check (!seen.contains name) "candidate-section-duplicate"
    let fields ← optionFields section_ "candidate-options-invalid"
    let entries ← readOptions "candidate-option-name-invalid" fields
    match checkSection b mqSupported sqm name entries with
    | .ok () => checkSections (seen ++ [name]) errors rest
    | .error message => checkSections (seen ++ [name]) (errors ++ [⟨name, message⟩]) rest

end Check

section Validate

variable {F : Type} (b : Build F) (mqSupported : String → Except String Bool)

def queuesOf (input : Value) : Except String (List Value) :=
  match input.get "sqm" with
  | none => .ok []
  | some queues => orError (queues.asArray.filter fun queues =>
    decide (queues.length ≤ maxSections)) "candidate-sqm-sections-invalid"

def globalsOf (input : Value) : Except String (List (Text × Value)) :=
  match input.get "globals" with
  | none => .ok []
  | some globals => orError globals.asObject "candidate-globals-invalid"

def validateParts (input : Value) : Except String Verdict := do
  check ((input.get "schema_version").bind Value.asU64 == some schemaVersion)
    "candidate-schema-mismatch"
  let requestId ← orError (((input.get "request_id").bind Value.asStr).filter fun id =>
    byteLength id == 32 && id.all Routing.isHexDigit) "candidate-request-id-invalid"
  let sections ← orError (((input.get "sections").bind Value.asArray).filter fun sections =>
    decide (sections.length ≤ maxSections)) "candidate-sections-invalid"
  let queues ← queuesOf input
  let sqm ← readQueues [] queues
  let globals ← globalsOf input
  let (seen, errors) ← checkSections b mqSupported sqm [] (globalIssues globals) sections
  return .checked requestId seen.length errors

/-- `validate_value_with`. -/
def validateValue (input : Value) : Verdict :=
  match validateParts b mqSupported input with
  | .ok verdict => verdict
  | .error code => .failure code

end Validate

theorem readOptions_names {code : String} {fields : List (Text × Value)} {entries : List Entry}
    (h : readOptions code fields = .ok entries) :
    ∀ e ∈ entries, e.1.all isNameChar = true ∧ e.1 ≠ [] := by
  induction fields generalizing entries with
  | nil =>
    rw [← ok.inj h]
    intro e he
    cases he
  | cons field rest ih =>
    obtain ⟨_, hcheck, h⟩ := bind_ok.mp h
    obtain ⟨values, _, h⟩ := bind_ok.mp h
    obtain ⟨others, hothers, h⟩ := bind_ok.mp h
    have hname := check_ok.mp hcheck
    simp only [Bool.and_eq_true, Bool.not_eq_true', List.isEmpty_eq_false_iff] at hname
    rw [← ok.inj h]
    intro e he
    rcases List.mem_cons.mp he with rfl | he
    · exact ⟨hname.2, hname.1.1⟩
    · exact ih hothers e he

theorem holds_optionsOf {entries : List Entry} (hnodup : (entries.map fst).Nodup) :
    Holds (optionsOf entries) entries := by
  refine holds_foldl hnodup fun o e done _ ho hnew => ho.concat hnew ?_ rfl
  show Function.update o.single (ofList e.1) (e.2.head?.or (o.single (ofList e.1))) = _
  rw [(ho.none e.1 hnew).1, or_none]

section Accepted

variable {F : Type} {b : Build F} {mqSupported : String → Except String Bool}

/-- A section of a candidate, as it is read. -/
structure Reads (section_ : Value) (name : Text) (entries : List Entry) : Prop where
  name : sectionName section_ "candidate-section-name-invalid" = .ok name
  options : ∃ fields, optionFields section_ "candidate-options-invalid" = .ok fields ∧
    readOptions "candidate-option-name-invalid" fields = .ok entries

/-- **Sections without issues** have all been checked. -/
theorem checkSections_accepts {sqm : List (Text × List Entry)} {seen seen' : List Text}
    {errors : List Issue} {sections : List Value}
    (h : checkSections b mqSupported sqm seen errors sections = .ok (seen', [])) :
    errors = [] ∧ ∀ section_ ∈ sections, ∀ name entries, Reads section_ name entries →
      checkSection b mqSupported sqm name entries = .ok () := by
  induction sections generalizing seen errors with
  | nil =>
    refine ⟨(mk.inj (ok.inj h)).2, ?_⟩
    intro section_ hmem
    cases hmem
  | cons section_ rest ih =>
    obtain ⟨name, hname, h⟩ := bind_ok.mp h
    obtain ⟨_, _, h⟩ := bind_ok.mp h
    obtain ⟨fields, hfields, h⟩ := bind_ok.mp h
    obtain ⟨entries, hentries, h⟩ := bind_ok.mp h
    cases hcheck : checkSection b mqSupported sqm name entries with
    | error message =>
      rw [hcheck] at h
      have hnone := (ih h).1
      exact absurd hnone (by simp)
    | ok u =>
      rw [hcheck] at h
      obtain ⟨herrors, hrest⟩ := ih h
      refine ⟨herrors, fun s hs n es hreads => ?_⟩
      rcases mem_cons.mp hs with rfl | hs
      · obtain ⟨hname', fields', hfields', hentries'⟩ := hreads
        rw [hname] at hname'
        rw [hfields] at hfields'
        cases hfields'
        rw [hentries] at hentries'
        rw [← ok.inj hname', ← ok.inj hentries']
        exact hcheck
      · exact hrest s hs n es hreads

/-- **A section of a valid candidate** has a configuration. -/
theorem config_of_valid {input : Value} (h : (validateValue b mqSupported input).valid = true)
    {sections : List Value} (hsections : (input.get "sections").bind Value.asArray = some sections)
    {section_ : Value} (hmem : section_ ∈ sections) {name : Text} {entries : List Entry}
    (hreads : Reads section_ name entries) :
    ∃ cfg, fromUciValues b name (optionsOf entries) = .ok cfg := by
  unfold validateValue at h
  cases hparts : validateParts b mqSupported input with
  | error code =>
    rw [hparts] at h
    cases h
  | ok verdict =>
    rw [hparts] at h
    obtain ⟨_, _, hparts⟩ := bind_ok.mp hparts
    obtain ⟨requestId, _, hparts⟩ := bind_ok.mp hparts
    obtain ⟨sections', hsections', hparts⟩ := bind_ok.mp hparts
    obtain ⟨queues, _, hparts⟩ := bind_ok.mp hparts
    obtain ⟨sqm, _, hparts⟩ := bind_ok.mp hparts
    obtain ⟨globals, _, hparts⟩ := bind_ok.mp hparts
    obtain ⟨⟨seen, errors⟩, hchecked, hparts⟩ := bind_ok.mp hparts
    rw [← ok.inj hparts] at h
    have herrors : errors = [] := isEmpty_iff.mp h
    have hsame : sections' = sections := by
      rw [hsections] at hsections'
      cases hfilter : (some sections).filter fun sections : List Value =>
          decide (sections.length ≤ maxSections) with
      | none =>
        rw [hfilter] at hsections'
        cases hsections'
      | some found =>
        rw [hfilter] at hsections'
        rw [← ok.inj hsections']
        exact (some.inj (filter_eq_some_iff.mp hfilter).1).symm
    rw [herrors] at hchecked
    rw [← hsame] at hmem
    have hcheck := (checkSections_accepts hchecked).2 section_ hmem name entries hreads
    obtain ⟨_, _, hcheck⟩ := bind_ok.mp hcheck
    obtain ⟨cfg, hcfg, _⟩ := bind_ok.mp hcheck
    exact ⟨cfg, hcfg⟩

end Accepted

/-- **What was checked is what is read.**  The options of a section of a valid candidate come back
from the printed section exactly when no value holds a newline, and then the daemon reads the
configuration that was checked. -/
theorem candidate_read_back {F : Type} (b : Build F) (mqSupported : String → Except String Bool)
    (input : Value) (hvalid : (validateValue b mqSupported input).valid = true)
    (sections : List Value) (hsections : (input.get "sections").bind Value.asArray = some sections)
    (section_ : Value) (hmem : section_ ∈ sections) (name : Text) (entries printed : List Entry)
    (hreads : Reads section_ name entries) (hkeys : (entries.map fst).Nodup)
    (hlists : ∀ e ∈ entries, e.2 ≠ []) (hperm : printed.Perm entries) :
    ∃ cfg, fromUciValues b name (optionsOf entries) = .ok cfg ∧
      (readText name (uciShow name printed) = optionsOf entries ↔
        ∀ e ∈ entries, ∀ value ∈ e.2, '\n' ∉ value) ∧
      ((∀ e ∈ entries, ∀ value ∈ e.2, '\n' ∉ value) →
        fromUciText b name (uciShow name printed) = .ok cfg) := by
  obtain ⟨cfg, hcfg⟩ := config_of_valid hvalid hsections hmem hreads
  have hname : name.all isNameChar = true := by
    have hfound := hreads.name
    unfold sectionName orError at hfound
    cases hfilter : ((section_.get "name").bind Value.asStr).filter safeName with
    | none =>
      rw [hfilter] at hfound
      cases hfound
    | some found =>
      rw [hfilter] at hfound
      have hsafe := (filter_eq_some_iff.mp hfilter).2
      rw [← ok.inj hfound]
      unfold safeName at hsafe
      simp only [Bool.and_eq_true] at hsafe
      exact hsafe.2
  obtain ⟨fields, -, hentries⟩ := hreads.options
  have hholds := holds_optionsOf hkeys
  have hback : (∀ e ∈ entries, ∀ value ∈ e.2, '\n' ∉ value) →
      readText name (uciShow name printed) = optionsOf entries := by
    intro hnewline
    have hprinted : Holds (readText name (uciShow name printed)) printed := by
      refine holds_readText hname (fun e he => ?_) ?_ fun e he => hnewline e (hperm.mem_iff.mp he)
      · obtain ⟨hkey, hne⟩ := readOptions_names hentries e (hperm.mem_iff.mp he)
        exact ⟨hkey, hne, hlists e (hperm.mem_iff.mp he)⟩
      · exact (hperm.map fst).nodup_iff.mpr hkeys
    exact hprinted.unique hholds hperm
  refine ⟨cfg, hcfg, ⟨?_, hback⟩, ?_⟩
  · intro hsame e he value hvalue
    have hlist := hholds.lists e he
    rw [← hsame] at hlist
    exact plain_readText name _ _ e.2 hlist value hvalue
  · intro hnewline
    rw [fromUciText, hback hnewline]
    exact hcfg

def textBuild : Build ℚ where
  transportProbes := true
  calibration := true
  net := addressText
  usizeBits := 64
  real x := x
  parseReal _ := .error "invalid float literal"
  isFinite _ := true
  validateCore _ := .ok ()
  validate _ := .ok ()

def oneSection (options : List (Text × Value)) : Value :=
  .object [(lit "schema_version", .number (some 1)),
    (lit "request_id", .string (lit "0123456789abcdef0123456789abcdef")),
    (lit "sections", .array [.object [(lit "name", .string (lit "wan")),
      (lit "options", .object options)]])]

def asStrings (entries : List Entry) : List (Text × Value) :=
  entries.map fun e => (e.1, .string (e.2.headD []))

def wanSection (entries : List Entry) : Value :=
  .object [(lit "name", .string (lit "wan")), (lit "options", .object (asStrings entries))]

def plainNote : List Entry := [(lit "manage_sqm", [lit "0"]), (lit "note", [lit "it's \\ here"])]

theorem candidate_read_back_note :
    ∃ cfg, fromUciValues textBuild (lit "wan") (optionsOf plainNote) = .ok cfg ∧
      (readText (lit "wan") (uciShow (lit "wan") plainNote.reverse) = optionsOf plainNote ↔
        ∀ e ∈ plainNote, ∀ value ∈ e.2, '\n' ∉ value) ∧
      ((∀ e ∈ plainNote, ∀ value ∈ e.2, '\n' ∉ value) →
        fromUciText textBuild (lit "wan") (uciShow (lit "wan") plainNote.reverse) = .ok cfg) := by
  have hvalid : (validateValue textBuild (fun _ => .ok true)
      (oneSection (asStrings plainNote))).valid = true := by decide +kernel
  have hreads : Reads (wanSection plainNote) (lit "wan") plainNote :=
    ⟨by decide +kernel, asStrings plainNote, rfl, by decide +kernel⟩
  exact candidate_read_back textBuild (fun _ => .ok true) (oneSection (asStrings plainNote)) hvalid
    [wanSection plainNote] rfl (wanSection plainNote) mem_cons_self (lit "wan") plainNote
    plainNote.reverse hreads (by decide) (by decide) (reverse_perm _)

def longNote : List Entry :=
  [(lit "manage_sqm", [lit "0"]), (lit "note", [lit "a\ncake-autorate.wan.enabled=1"])]

/-- **A newline sets another option.** -/
theorem newline_sets_another_option : ∃ (input section_ : Value) (name : Text)
    (entries : List Entry) (cfg cfg' : Config ℚ),
      (validateValue textBuild (fun _ => .ok true) input).valid = true ∧
      (input.get "sections").bind Value.asArray = some [section_] ∧
      Reads section_ name entries ∧ (entries.map fst).Nodup ∧ (∀ e ∈ entries, e.2 ≠ []) ∧
      fromUciValues textBuild name (optionsOf entries) = .ok cfg ∧
      fromUciText textBuild name (uciShow name entries) = .ok cfg' ∧
      cfg.flag "enabled" = false ∧ cfg'.flag "enabled" = true := by
  have hvalid : (validateValue textBuild (fun _ => .ok true)
      (oneSection (asStrings longNote))).valid = true := by decide +kernel
  have hreads : Reads (wanSection longNote) (lit "wan") longNote :=
    ⟨by decide +kernel, asStrings longNote, rfl, by decide +kernel⟩
  have hchecked : ((fromUciValues textBuild (lit "wan") (optionsOf longNote)).toOption.map
      (Config.flag · "enabled")) = some false := by decide +kernel
  have hread : ((fromUciText textBuild (lit "wan") (uciShow (lit "wan") longNote)).toOption.map
      (Config.flag · "enabled")) = some true := by decide +kernel
  obtain ⟨cfg, hcfg, hoff⟩ := exists_of_map hchecked
  obtain ⟨cfg', hcfg', hon⟩ := exists_of_map hread
  exact ⟨oneSection (asStrings longNote), wanSection longNote, lit "wan", longNote, cfg, cfg',
    hvalid, rfl, hreads, by decide, by decide, hcfg, hcfg', hoff, hon⟩

end CakeAutorate.Candidate
