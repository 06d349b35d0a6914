/-
# The device of the default route

`DefaultRoutePick`, `parse_proc_default_route_device` and `parse_default_route_device` of
`routing.rs`.  A route that may not be used counts as one without a device, so that it blocks the
routes above it.

The rows of `/proc/net/route` and the lines of `ip route` are given by their words, with any blanks
between them: what a reader sees of a route is whether it is up, whether it rejects, and whether it
is marked.
-/

import CakeAutorate.Candidate.Config
import Mathlib.Data.List.TakeWhile

namespace CakeAutorate.Routing

open Wire Protocol List Prod
open Candidate (splitWhitespace)

structure DefaultRoutePick (D : Type) where
  metric : Option ℕ := none
  device : Option D := none

section Pick

variable {D : Type} [DecidableEq D]

def DefaultRoutePick.consider (pick : DefaultRoutePick D) (metric : ℕ) (device : Option D) :
    DefaultRoutePick D :=
  match pick.metric with
  | none => ⟨some metric, device⟩
  | some best =>
    if metric < best then ⟨some metric, device⟩
    else if metric = best ∧ pick.device ≠ device then { pick with device := none }
    else pick

abbrev Seen (D : Type) := ℕ × Option D

def Agreed (seen : List (Seen D)) (d : D) : Prop :=
  ∃ m, (m, some d) ∈ seen ∧ ∀ s ∈ seen, m ≤ s.1 ∧ (s.1 = m → s.2 = some d)

/-- The pick after some routes: their lowest metric, and what the routes of that metric say. -/
structure Picked (seen : List (Seen D)) (pick : DefaultRoutePick D) : Prop where
  none : pick.metric = none → seen = [] ∧ pick.device = none
  mem : ∀ m, pick.metric = some m → ∃ s ∈ seen, s.1 = m
  lowest : ∀ m, pick.metric = some m → ∀ s ∈ seen, m ≤ s.1
  device : ∀ m, pick.metric = some m →
    ∀ d, pick.device = some d ↔ ∀ s ∈ seen, s.1 = m → s.2 = some d

omit [DecidableEq D] in
theorem picked_nil : Picked ([] : List (Seen D)) {} where
  none _ := ⟨rfl, rfl⟩
  mem _ h := by cases h
  lowest _ h := by cases h
  device _ h := by cases h

omit [DecidableEq D] in
theorem picked_better {seen : List (Seen D)} {s : Seen D} (hbetter : ∀ r ∈ seen, s.1 < r.1) :
    Picked (seen ++ [s]) ⟨some s.1, s.2⟩ where
  none h := by cases h
  mem m h := ⟨s, mem_append_right _ mem_cons_self, Option.some.inj h⟩
  lowest m h r hr := by
    rw [← Option.some.inj h]
    rcases mem_append.mp hr with hr | hr
    · exact (hbetter r hr).le
    · exact (mem_singleton.mp hr) ▸ Nat.le_refl _
  device m h d := by
    cases h
    constructor
    · intro hd r hr hmetric
      rcases mem_append.mp hr with hr | hr
      · exact absurd hmetric (Nat.ne_of_gt (hbetter r hr))
      · rw [mem_singleton.mp hr]
        exact hd
    · intro hall
      exact hall s (mem_append_right _ mem_cons_self) rfl

/-- **One more route.** -/
theorem Picked.consider {seen : List (Seen D)} {pick : DefaultRoutePick D}
    (h : Picked seen pick) (s : Seen D) : Picked (seen ++ [s]) (pick.consider s.1 s.2) := by
  unfold DefaultRoutePick.consider
  cases hmetric : pick.metric with
  | none =>
    refine picked_better ?_
    rw [(h.none hmetric).1]
    intro r hr
    cases hr
  | some best =>
    show Picked _ (if s.1 < best then _ else _)
    by_cases hless : s.1 < best
    · rw [if_pos hless]
      exact picked_better fun r hr => lt_of_lt_of_le hless (h.lowest best hmetric r hr)
    · rw [if_neg hless]
      have hmem : ∀ m, some best = some m → ∃ r ∈ seen ++ [s], r.1 = m := by
        intro m hm
        obtain ⟨r, hr, hrm⟩ := h.mem m (hmetric.trans hm)
        exact ⟨r, mem_append_left _ hr, hrm⟩
      have hlowest : ∀ m, some best = some m → ∀ r ∈ seen ++ [s], m ≤ r.1 := by
        intro m hm r hr
        cases hm
        rcases mem_append.mp hr with hr | hr
        · exact h.lowest best hmetric r hr
        · rw [mem_singleton.mp hr]
          omega
      by_cases htie : s.1 = best ∧ pick.device ≠ s.2
      · rw [if_pos htie]
        refine ⟨fun hn => ?_, fun m hm => hmem m hm, fun m hm => hlowest m hm, fun m hm d => ?_⟩
        · cases hn
        · cases hm
          constructor
          · intro hd
            cases hd
          · intro hall
            have hold : pick.device = some d := (h.device best hmetric d).mpr fun r hr =>
              hall r (mem_append_left _ hr)
            have hnew := hall s (mem_append_right _ mem_cons_self) htie.1
            exact absurd (hold.trans hnew.symm) htie.2
      · rw [if_neg htie]
        refine ⟨fun hn => ?_, fun m hm => hmem m (hmetric.symm.trans hm),
          fun m hm => hlowest m (hmetric.symm.trans hm), fun m hm d => ?_⟩
        · rw [hmetric] at hn
          cases hn
        · cases hmetric.symm.trans hm
          rw [h.device best hmetric d]
          constructor
          · intro hall r hr hrm
            rcases mem_append.mp hr with hr | hr
            · exact hall r hr hrm
            · obtain rfl := mem_singleton.mp hr
              have hsame : pick.device = r.2 := by
                by_contra hne
                exact htie ⟨hrm, hne⟩
              rw [← hsame]
              exact (h.device best hmetric d).mpr hall
          · intro hall r hr
            exact hall r (mem_append_left _ hr)

def pickOf (seen : List (Seen D)) : DefaultRoutePick D :=
  seen.foldl (fun pick s => pick.consider s.1 s.2) {}

theorem pickOf_concat (seen : List (Seen D)) (s : Seen D) :
    pickOf (seen ++ [s]) = (pickOf seen).consider s.1 s.2 := by
  rw [pickOf, foldl_append]
  rfl

theorem picked (seen : List (Seen D)) : Picked seen (pickOf seen) := by
  induction seen using List.reverseRecOn with
  | nil => exact picked_nil
  | append_singleton seen s ih =>
    rw [pickOf_concat]
    exact ih.consider s

/-- **The pick** ends with the device that every route of the lowest metric has. -/
theorem pickOf_device {seen : List (Seen D)} {d : D} :
    (pickOf seen).device = some d ↔ Agreed seen d := by
  have h := picked seen
  cases hmetric : (pickOf seen).metric with
  | none =>
    obtain ⟨hseen, hdevice⟩ := h.none hmetric
    rw [hdevice]
    constructor
    · intro hnone
      cases hnone
    · rintro ⟨m, hmem, _⟩
      rw [hseen] at hmem
      cases hmem
  | some best =>
    rw [h.device best hmetric d]
    constructor
    · intro hall
      obtain ⟨r, hr, hrm⟩ := h.mem best hmetric
      refine ⟨best, ?_, fun s hs => ⟨h.lowest best hmetric s hs, hall s hs⟩⟩
      rw [← hrm, ← hall r hr hrm]
      exact hr
    · rintro ⟨m, hmem, hall⟩ s hs hsm
      obtain ⟨r, hr, hrm⟩ := h.mem best hmetric
      have hlow := h.lowest best hmetric _ hmem
      have hhigh := (hall r hr).1
      refine (hall s hs).2 ?_
      omega

omit [DecidableEq D] in
theorem agreed_perm {seen seen' : List (Seen D)} (h : seen.Perm seen') {d : D} :
    Agreed seen d ↔ Agreed seen' d := by
  unfold Agreed
  simp only [h.mem_iff]

end Pick

/-- `u32::from_str_radix(_, 16)`. -/
def parseHexU32 (t : Text) : Option (BitVec 32) :=
  let digits := if t.head? = some '+' then t.tail else t
  if digits.isEmpty || !digits.all isHexDigit then none else parseHexDigits digits

def rtfUp : BitVec 32 := 0x0001

def rtfReject : BitVec 32 := 0x0200

/-- `parse_proc_default_route_device`, one row. -/
def considerRow (pick : DefaultRoutePick Text) (line : Text) : Option (DefaultRoutePick Text) := do
  let fields := splitWhitespace line
  if fields[1]? ≠ some (lit "00000000") then return pick
  if (← parseHexU32 (← fields[7]?)) ≠ 0 then return pick
  let flags ← parseHexU32 (← fields[3]?)
  if flags &&& rtfUp = 0 then return pick
  let metric ← parseUInt (2 ^ 32) (← fields[6]?)
  let device ← fields[0]?
  if isSafeIdentifier device = false then none
  else return pick.consider metric (if flags &&& rtfReject = 0 then some device else none)

def parseProcDefaultRouteDevice (routes : Text) : Option Text := do
  let pick ← ((lines routes).drop 1).foldlM considerRow {}
  pick.device

structure TextDefaultRoute where
  metric : ℕ
  device : Option Text
  unusable : Bool

/-- The words by which `ip` says that a route may not work, or hides its device. -/
def isMark (word : Text) : Bool := [lit "dead", lit "linkdown", lit "nhid"].contains word

/-- `TextDefaultRoute::observe_devices`, one word and what follows it. -/
def TextDefaultRoute.observeWord (route : TextDefaultRoute) (word : Text) (rest : List Text) :
    TextDefaultRoute :=
  let route := if isMark word then { route with unusable := true } else route
  if word ≠ lit "dev" then route
  else match rest.head?.filter isSafeIdentifier with
    | none => { route with unusable := true }
    | some device =>
      { route with
        unusable := route.unusable || route.device.any fun previous => previous ≠ device
        device := some device }

def TextDefaultRoute.observeDevices (route : TextDefaultRoute) : List Text → TextDefaultRoute
  | [] => route
  | word :: rest => (route.observeWord word rest).observeDevices rest

def TextDefaultRoute.finish (route : TextDefaultRoute) (pick : DefaultRoutePick Text) :
    DefaultRoutePick Text :=
  pick.consider route.metric (if route.unusable then none else route.device)

/-- `parse_default_route_device`, the metric of a route. -/
def metricOf (words : List Text) : Option ℕ :=
  match words.dropWhile (· ≠ lit "metric") with
  | [] => some 0
  | _ :: rest => do
    let metric ← parseUInt (2 ^ 32) (← rest.head?)
    if rest.contains (lit "metric") then none else some metric

/-- The variables of `parse_default_route_device`. -/
structure TextScan where
  pick : DefaultRoutePick Text := {}
  current : Option TextDefaultRoute := none

def TextScan.settle (s : TextScan) : DefaultRoutePick Text :=
  match s.current with
  | none => s.pick
  | some route => route.finish s.pick

/-- `parse_default_route_device`, one line. -/
def TextScan.read (s : TextScan) (line : Text) : Option TextScan := do
  let words := splitWhitespace line
  if words.head? = some (lit "nexthop") then
    let current ← s.current
    return { s with current := some (current.observeDevices words) }
  let s : TextScan := { pick := s.settle }
  if words.head? ≠ some (lit "default") ∧ words[1]? ≠ some (lit "default") then return s
  let metric ← metricOf words
  let route : TextDefaultRoute :=
    { metric, device := none,
      unusable := words.head? ≠ some (lit "default") ∧ words.head? ≠ some (lit "unicast") }
  return { s with current := some (route.observeDevices words) }

def parseDefaultRouteDevice (routes : Text) : Option Text := do
  let s ← (lines routes).foldlM TextScan.read {}
  s.settle.device

/-- An IPv4 default route: whether it is up, whether it rejects, and whether `ip` marks it as
dead, without a link, or held by a nexthop object. -/
structure DefaultRoute where
  metric : ℕ
  metric_lt : metric < 2 ^ 32
  device : Text
  up : Bool
  rejects : Bool
  marked : Bool

/-- A number in hexadecimal, with any zeros before it and letters of either case. -/
structure HexNumeral (n : BitVec 32) (t : Text) : Prop where
  ne : t ≠ []
  digits : t.all isHexDigit = true
  value : t.foldl (fun n c => 16 * n + hexDigitValue c) 0 = n.toNat

/-- The fields of a row of `/proc/net/route`: of a default route, of another destination, or of
half the addresses. -/
inductive ProcRow : Option DefaultRoute → List Text → Prop
  | route (r : DefaultRoute) {flags : BitVec 32} {f mask gateway references uses : Text}
      (rest : List Text) (hflags : HexNumeral flags f) (hmask : HexNumeral 0 mask)
      (hup : (flags &&& rtfUp = 0) ↔ r.up = false)
      (hrejects : (flags &&& rtfReject = 0) ↔ r.rejects = false) :
      ProcRow (some r) (r.device :: lit "00000000" :: gateway :: f :: references :: uses ::
        display r.metric :: mask :: rest)
  | subnet {device destination : Text} (rest : List Text) (h : destination ≠ lit "00000000") :
      ProcRow none (device :: destination :: rest)
  | half {device gateway f references uses metric mask : Text} {n : BitVec 32} (rest : List Text)
      (hmask : HexNumeral n mask) (hn : n ≠ 0) :
      ProcRow none (device :: lit "00000000" :: gateway :: f :: references :: uses :: metric ::
        mask :: rest)

def isPlain (word : Text) : Bool := word ≠ lit "dev" && word ≠ lit "metric" && !isMark word

/-- What stands behind `default` in a line of `ip route`. -/
inductive Attribute
  | dev
  | metric
  | mark (word : Text)
  | other (word : Text)
deriving DecidableEq

def DefaultRoute.words (r : DefaultRoute) : Attribute → List Text
  | .dev => [lit "dev", r.device]
  | .metric => [lit "metric", display r.metric]
  | .mark word => [word]
  | .other word => [word]

/-- The attributes of a route: its device, unless it rejects; its metric once, unless it is zero;
and a mark if it is marked. -/
structure Attributes (r : DefaultRoute) (attributes : List Attribute) : Prop where
  dev : .dev ∈ attributes ∨ r.rejects = true
  metric : attributes.count .metric = 1 ∨ r.metric = 0 ∧ attributes.count .metric = 0
  mark : r.marked = true ↔ ∃ word, .mark word ∈ attributes
  marks : ∀ word, .mark word ∈ attributes → isMark word = true
  others : ∀ word, .other word ∈ attributes → isPlain word = true

/-- The words of a line of `ip route`: of a default route, with its type in front if it has
another than `unicast`, or of another destination. -/
inductive IpLine : Option DefaultRoute → List Text → Prop
  | unicast (r : DefaultRoute) {attributes : List Attribute} (written : Bool)
      (hrejects : r.rejects = false) (hdevice : isPlain r.device = true)
      (h : Attributes r attributes) :
      IpLine (some r) ((if written then [lit "unicast"] else []) ++
        lit "default" :: attributes.flatMap r.words)
  | typed (r : DefaultRoute) {attributes : List Attribute} {type : Text}
      (htype : type ∉ [lit "default", lit "unicast", lit "nexthop"]) (hplain : isPlain type = true)
      (hrejects : r.rejects = true) (hdevice : isPlain r.device = true)
      (h : Attributes r attributes) :
      IpLine (some r) (type :: lit "default" :: attributes.flatMap r.words)
  | other {words : List Text} (hnexthop : words.head? ≠ some (lit "nexthop"))
      (hfirst : words.head? ≠ some (lit "default")) (hsecond : words[1]? ≠ some (lit "default")) :
      IpLine none words

/-- A text whose lines show routes, in the order of its lines. -/
structure Shown (Line : Option DefaultRoute → List Text → Prop) (routes : List DefaultRoute) where
  lines : List (Option DefaultRoute × Text)
  shows : ∀ l ∈ lines, Line l.1 (splitWhitespace l.2)
  oneLine : ∀ l ∈ lines, '\n' ∉ l.2
  ended : ∀ l ∈ lines, l.2.getLast? ≠ some '\r'
  routes : (lines.filterMap fst).Perm routes

def rowSeen (r : DefaultRoute) : Seen Text := (r.metric, if r.rejects then none else some r.device)

theorem parseHexU32_numeral {n : BitVec 32} {t : Text} (h : HexNumeral n t) :
    parseHexU32 t = some n := by
  have hhead : t.head? ≠ some '+' := by
    intro hplus
    have hdigit := all_eq_true.mp h.digits _ (mem_of_head? hplus)
    exact absurd hdigit (by decide)
  have hempty : t.isEmpty = false := by simpa using h.ne
  have hn := n.isLt
  simp [parseHexU32, if_neg hhead, hempty, h.digits, parseHexDigits, h.value, if_pos hn]

variable {r : DefaultRoute} {attributes : List Attribute} {routes : List DefaultRoute} {line : Text}

theorem considerRow_route (h : ProcRow (some r) (splitWhitespace line))
    (pick : DefaultRoutePick Text) :
    considerRow pick line = if r.up = false then some pick
      else if isSafeIdentifier r.device = false then none
      else some (pick.consider (rowSeen r).1 (rowSeen r).2) := by
  generalize hwords : splitWhitespace line = words at h
  cases h with
  | route r rest hflags hmask hup hrejects =>
    have hmetric := parseUInt_display r.metric_lt
    unfold considerRow
    rw [hwords]
    simp only [getElem?_cons_succ, getElem?_cons_zero, ne_eq, not_true_eq_false,
      if_false, Option.bind_eq_bind, Option.bind_some, parseHexU32_numeral hmask,
      parseHexU32_numeral hflags, hmetric, hup, Option.pure_def]
    by_cases hdown : r.up = false
    · simp [hdown]
    · by_cases hsafe : isSafeIdentifier r.device = false
      · simp [hsafe]
      · simp only [hsafe, rowSeen]
        cases hreject : r.rejects with
        | true =>
          have hne : ¬ _ = _ := fun hzero => by
            have := hrejects.mp hzero
            rw [hreject] at this
            cases this
          rw [if_neg hne, if_pos rfl]
        | false =>
          rw [if_pos (hrejects.mpr hreject), if_neg Bool.false_ne_true]

theorem considerRow_other (h : ProcRow none (splitWhitespace line)) (pick : DefaultRoutePick Text) :
    considerRow pick line = some pick := by
  generalize hwords : splitWhitespace line = words at h
  cases h with
  | subnet rest hdestination =>
    unfold considerRow
    rw [hwords]
    simp only [getElem?_cons_succ, getElem?_cons_zero, ne_eq, Option.some.injEq,
      hdestination, not_false_eq_true, if_true, Option.pure_def]
  | half rest hmask hn =>
    unfold considerRow
    rw [hwords]
    simp only [getElem?_cons_succ, getElem?_cons_zero, ne_eq, not_true_eq_false,
      if_false, Option.bind_eq_bind, Option.bind_some, parseHexU32_numeral hmask, hn,
      not_false_eq_true, if_true, Option.pure_def]

def lineSeen (r : DefaultRoute) : Seen Text :=
  (r.metric, if r.rejects || r.marked || !isSafeIdentifier r.device then none else some r.device)

def TextDefaultRoute.observeAttribute (r : DefaultRoute) (route : TextDefaultRoute) :
    Attribute → TextDefaultRoute
  | .dev =>
    if isSafeIdentifier r.device then
      { route with
        unusable := route.unusable || route.device.any fun previous => previous ≠ r.device
        device := some r.device }
    else { route with unusable := true }
  | .mark _ => { route with unusable := true }
  | _ => route

theorem observeWord_plain {word : Text} (h : isPlain word = true) (route : TextDefaultRoute)
    (rest : List Text) : route.observeWord word rest = route := by
  simp only [isPlain, Bool.and_eq_true, ne_eq, decide_not, Bool.not_eq_true',
    decide_eq_false_iff_not] at h
  simp only [TextDefaultRoute.observeWord, h.2, Bool.false_eq_true, if_false, ne_eq, h.1.1,
    not_false_eq_true, if_true]

theorem isPlain_display (n : ℕ) : isPlain (display n) = true := by
  have hne : ∀ word : Text, word.any (fun c => !c.isDigit) = true → display n ≠ word := by
    rintro word hword rfl
    obtain ⟨c, hc, hdigit⟩ := any_eq_true.mp hword
    rw [display_isDigit hc] at hdigit
    cases hdigit
  have hdev := hne (lit "dev") (by decide)
  have hmetric := hne (lit "metric") (by decide)
  have hdead := hne (lit "dead") (by decide)
  have hlinkdown := hne (lit "linkdown") (by decide)
  have hnhid := hne (lit "nhid") (by decide)
  simp [isPlain, isMark, hdev, hmetric, hdead, hlinkdown, hnhid]

theorem isMark_ne {word : Text} (h : isMark word = true) :
    word ≠ lit "dev" ∧ word ≠ lit "metric" := by
  simp only [isMark, contains_cons, contains_nil, Bool.or_false, Bool.or_eq_true, beq_iff_eq] at h
  rcases h with rfl | rfl | rfl <;> exact ⟨by decide, by decide⟩

theorem observeDevices_words (hdevice : isPlain r.device = true) {a : Attribute}
    (hmark : ∀ word, a = .mark word → isMark word = true)
    (hother : ∀ word, a = .other word → isPlain word = true) (route : TextDefaultRoute)
    (rest : List Text) :
    route.observeDevices (r.words a ++ rest) =
      (route.observeAttribute r a).observeDevices rest := by
  cases a with
  | dev =>
    have hdev : isMark (lit "dev") = false := by decide
    show ((route.observeWord (lit "dev") (r.device :: rest)).observeWord r.device
      rest).observeDevices rest = _
    rw [observeWord_plain hdevice]
    congr 1
    by_cases hsafe : isSafeIdentifier r.device = true
    · simp [TextDefaultRoute.observeWord, TextDefaultRoute.observeAttribute, hdev, hsafe,
        Option.filter]
    · simp [TextDefaultRoute.observeWord, TextDefaultRoute.observeAttribute, hdev, hsafe,
        Option.filter]
  | metric =>
    show ((route.observeWord (lit "metric") (display r.metric :: rest)).observeWord
      (display r.metric) rest).observeDevices rest = _
    have hmetric : route.observeWord (lit "metric") (display r.metric :: rest) = route := by
      have hnot : isMark (lit "metric") = false := by decide
      have hne : lit "metric" ≠ lit "dev" := by decide
      simp [TextDefaultRoute.observeWord, hnot, hne]
    rw [hmetric, observeWord_plain (isPlain_display _)]
    rfl
  | mark word =>
    have hword := hmark word rfl
    have hne := (isMark_ne hword).1
    show (route.observeWord word rest).observeDevices rest = _
    simp [TextDefaultRoute.observeWord, hword, hne, TextDefaultRoute.observeAttribute]
  | other word =>
    show (route.observeWord word rest).observeDevices rest = _
    rw [observeWord_plain (hother word rfl)]
    rfl

theorem observeDevices_flatMap (hdevice : isPlain r.device = true)
    (hmark : ∀ word, .mark word ∈ attributes → isMark word = true)
    (hother : ∀ word, .other word ∈ attributes → isPlain word = true) (route : TextDefaultRoute) :
    route.observeDevices (attributes.flatMap r.words) =
      attributes.foldl (TextDefaultRoute.observeAttribute r) route := by
  induction attributes generalizing route with
  | nil => rfl
  | cons a attributes ih =>
    rw [flatMap_cons, foldl_cons, observeDevices_words hdevice]
    · exact ih (fun word hw => hmark word (mem_cons_of_mem _ hw))
        (fun word hw => hother word (mem_cons_of_mem _ hw)) _
    · rintro word rfl
      exact hmark word mem_cons_self
    · rintro word rfl
      exact hother word mem_cons_self

def Attribute.marks : Attribute → Bool
  | .mark _ => true
  | _ => false

theorem foldl_observeAttribute {route : TextDefaultRoute}
    (hroute : ∀ d, route.device = some d → d = r.device) :
    attributes.foldl (TextDefaultRoute.observeAttribute r) route =
      { metric := route.metric
        device := if .dev ∈ attributes ∧ isSafeIdentifier r.device = true then some r.device
          else route.device
        unusable := route.unusable || attributes.any Attribute.marks ||
          (decide (.dev ∈ attributes) && !isSafeIdentifier r.device) } := by
  induction attributes generalizing route with
  | nil => simp
  | cons a attributes ih =>
    rw [foldl_cons]
    cases a with
    | dev =>
      by_cases hsafe : isSafeIdentifier r.device = true
      · have hsame : route.device.any (fun previous => previous ≠ r.device) = false := by
          cases hdevice : route.device with
          | none => rfl
          | some d => simp [hroute d hdevice]
        have hstep : route.observeAttribute r .dev = { route with device := some r.device } := by
          simp only [TextDefaultRoute.observeAttribute, hsafe, if_true, hsame, Bool.or_false]
        rw [hstep, ih fun d hd => (Option.some.inj hd).symm]
        simp [hsafe, Attribute.marks]
      · have hstep : route.observeAttribute r .dev = { route with unusable := true } := by
          simp only [TextDefaultRoute.observeAttribute, hsafe, Bool.false_eq_true, if_false]
        rw [hstep, @ih { route with unusable := true } hroute]
        simp [hsafe]
    | metric =>
      show attributes.foldl _ route = _
      rw [ih hroute]
      simp [Attribute.marks]
    | mark word =>
      show attributes.foldl _ { route with unusable := true } = _
      rw [@ih { route with unusable := true } hroute]
      simp [Attribute.marks]
    | other word =>
      show attributes.foldl _ route = _
      rw [ih hroute]
      simp [Attribute.marks]

theorem metricOf_absent {words : List Text} (h : lit "metric" ∉ words) :
    metricOf words = some 0 := by
  have hdrop : words.dropWhile (· ≠ lit "metric") = [] := by
    rw [dropWhile_eq_nil_iff]
    intro word hword
    have hne : word ≠ lit "metric" := fun heq => h (heq ▸ hword)
    simpa using hne
  rw [metricOf, hdrop]

theorem metricOf_written {before after : List Text} {m : ℕ} (hm : m < 2 ^ 32)
    (hbefore : lit "metric" ∉ before) (hafter : lit "metric" ∉ after) :
    metricOf (before ++ lit "metric" :: display m :: after) = some m := by
  have hdrop : (before ++ lit "metric" :: display m :: after).dropWhile (· ≠ lit "metric") =
      lit "metric" :: display m :: after := by
    rw [dropWhile_append_of_pos]
    · rw [dropWhile_cons_of_neg (by simp)]
    · intro word hword
      have hne : word ≠ lit "metric" := fun heq => hbefore (heq ▸ hword)
      simpa using hne
  have hnumber : lit "metric" ≠ display m := by
    intro heq
    have hplain := isPlain_display m
    rw [← heq] at hplain
    exact absurd hplain (by decide)
  have hnot : (display m :: after).contains (lit "metric") = false := by
    simp [hnumber, hafter]
  rw [metricOf, hdrop]
  simp only [head?_cons, Option.bind_eq_bind, Option.bind_some, parseUInt_display hm, hnot,
    Bool.false_eq_true, if_false]

/-- Only the metric says `metric`. -/
theorem metric_notMem (hdevice : isPlain r.device = true) (hnone : .metric ∉ attributes)
    (hmark : ∀ word, .mark word ∈ attributes → isMark word = true)
    (hother : ∀ word, .other word ∈ attributes → isPlain word = true) :
    lit "metric" ∉ attributes.flatMap r.words := by
  have hplain : ∀ word, isPlain word = true → word ≠ lit "metric" := by
    rintro word hword rfl
    exact absurd hword (by decide)
  intro hmem
  obtain ⟨a, ha, hin⟩ := mem_flatMap.mp hmem
  cases a with
  | dev =>
    rcases mem_cons.mp hin with h | h
    · exact absurd h (by decide)
    · exact hplain _ hdevice (mem_singleton.mp h).symm
  | metric => exact hnone ha
  | mark word => exact (isMark_ne (hmark word ha)).2 (mem_singleton.mp hin).symm
  | other word => exact hplain _ (hother word ha) (mem_singleton.mp hin).symm

/-- **The metric of a default route.** -/
theorem metricOf_attributes (hdevice : isPlain r.device = true) (h : Attributes r attributes)
    {first : List Text} (hfirst : lit "metric" ∉ first) :
    metricOf (first ++ attributes.flatMap r.words) = some r.metric := by
  rcases h.metric with hone | ⟨hzero, hnone⟩
  · have hmem : .metric ∈ attributes := count_pos_iff.mp (by omega)
    obtain ⟨before, after, rfl⟩ := append_of_mem hmem
    rw [count_append, count_cons_self] at hone
    have hbefore : .metric ∉ before := count_eq_zero.mp (by omega)
    have hafter : .metric ∉ after := count_eq_zero.mp (by omega)
    have hsub : ∀ {part : List Attribute}, (∀ a ∈ part, a ∈ before ++ .metric :: after) →
        .metric ∉ part → lit "metric" ∉ part.flatMap r.words := fun hpart hnot =>
      metric_notMem hdevice hnot (fun word hw => h.marks word (hpart _ hw))
        (fun word hw => h.others word (hpart _ hw))
    rw [flatMap_append, flatMap_cons, ← append_assoc]
    refine metricOf_written r.metric_lt ?_ ?_
    · rw [mem_append, not_or]
      exact ⟨hfirst, hsub (fun a ha => mem_append_left _ ha) hbefore⟩
    · exact hsub (fun a ha => mem_append_right _ (mem_cons_of_mem _ ha)) hafter
  · rw [hzero]
    refine metricOf_absent ?_
    rw [mem_append, not_or]
    exact ⟨hfirst, metric_notMem hdevice (count_eq_zero.mp hnone) h.marks h.others⟩

theorem read_default {s : TextScan} {words : List Text} {m : ℕ}
    (hwords : splitWhitespace line = words) (hnexthop : words.head? ≠ some (lit "nexthop"))
    (hdefault : words.head? = some (lit "default") ∨ words[1]? = some (lit "default"))
    (hmetric : metricOf words = some m) :
    s.read line = some
      { pick := s.settle
        current := some (TextDefaultRoute.observeDevices
          { metric := m, device := none,
            unusable := words.head? ≠ some (lit "default") ∧
              words.head? ≠ some (lit "unicast") } words) } := by
  have hnot : ¬(words.head? ≠ some (lit "default") ∧ words[1]? ≠ some (lit "default")) :=
    fun h => hdefault.elim h.1 h.2
  unfold TextScan.read
  rw [hwords]
  simp [if_neg hnexthop, if_neg hnot, hmetric]

theorem settle_attributes (hdevice : isPlain r.device = true) (h : Attributes r attributes)
    {first : List Text} (hfirst : ∀ word ∈ first, isPlain word = true) {unusable : Bool}
    (hunusable : unusable = r.rejects) (pick : DefaultRoutePick Text) :
    (TextScan.mk pick (some (TextDefaultRoute.observeDevices
      { metric := r.metric, device := none, unusable } (first ++ attributes.flatMap r.words)))).settle
      = pick.consider (lineSeen r).1 (lineSeen r).2 := by
  have hskip : ∀ route : TextDefaultRoute,
      route.observeDevices (first ++ attributes.flatMap r.words) =
        route.observeDevices (attributes.flatMap r.words) := by
    intro route
    induction first with
    | nil => rfl
    | cons word first ih =>
      rw [cons_append, TextDefaultRoute.observeDevices,
        observeWord_plain (hfirst word mem_cons_self)]
      exact ih fun w hw => hfirst w (mem_cons_of_mem _ hw)
  have hmarked : attributes.any Attribute.marks = r.marked := by
    rw [Bool.eq_iff_iff, h.mark, any_eq_true]
    constructor
    · rintro ⟨a, ha, hmarks⟩
      cases a with
      | mark word => exact ⟨word, ha⟩
      | dev | metric | other => cases hmarks
    · rintro ⟨word, hword⟩
      exact ⟨_, hword, rfl⟩
  rw [hskip, observeDevices_flatMap hdevice h.marks h.others,
    foldl_observeAttribute fun d hd => by cases hd]
  show pick.consider r.metric _ = pick.consider r.metric _
  congr 1
  rw [hmarked, hunusable]
  by_cases hrejects : r.rejects = true
  · simp [lineSeen, hrejects]
  · have hdev : .dev ∈ attributes := h.dev.resolve_right hrejects
    by_cases hsafe : isSafeIdentifier r.device = true
    · simp [lineSeen, hrejects, hdev, hsafe]
    · simp [lineSeen, hrejects, hdev, hsafe]

/-- **The line of a default route.** -/
theorem read_route (h : IpLine (some r) (splitWhitespace line)) (s : TextScan) :
    ∃ s', s.read line = some s' ∧ s'.settle = s.settle.consider (lineSeen r).1 (lineSeen r).2 := by
  have hplain : isPlain (lit "default") = true := by decide
  generalize hwords : splitWhitespace line = words at h
  cases h with
  | @unicast r attributes written hrejects hdevice hattributes =>
    have hfirst : ∀ word ∈ (if written then [lit "unicast"] else []) ++ [lit "default"],
        isPlain word = true := by
      cases written <;> decide
    have hshape : (if written then [lit "unicast"] else []) ++
        lit "default" :: attributes.flatMap r.words =
        ((if written then [lit "unicast"] else []) ++ [lit "default"]) ++
          attributes.flatMap r.words := by
      rw [append_assoc, singleton_append]
    have hmetric : lit "metric" ∉ (if written then [lit "unicast"] else []) ++ [lit "default"] := by
      cases written <;> decide
    rw [hshape] at hwords
    refine ⟨_, read_default hwords ?_ ?_ (metricOf_attributes hdevice hattributes hmetric), ?_⟩
    · cases written
      · show some (lit "default") ≠ some (lit "nexthop")
        decide
      · show some (lit "unicast") ≠ some (lit "nexthop")
        decide
    · cases written
      · exact .inl rfl
      · exact .inr rfl
    · refine settle_attributes hdevice hattributes hfirst ?_ _
      rw [hrejects]
      cases written
      · show decide (some (lit "default") ≠ some (lit "default") ∧
          some (lit "default") ≠ some (lit "unicast")) = false
        decide
      · show decide (some (lit "unicast") ≠ some (lit "default") ∧
          some (lit "unicast") ≠ some (lit "unicast")) = false
        decide
  | @typed r attributes type htype hplainType hrejects hdevice hattributes =>
    simp only [mem_cons, not_mem_nil, or_false, not_or] at htype
    have hfirst : ∀ word ∈ [type, lit "default"], isPlain word = true := by
      intro word hword
      rcases mem_cons.mp hword with rfl | hword
      · exact hplainType
      · rw [mem_singleton.mp hword]
        exact hplain
    have hmetric : lit "metric" ∉ [type, lit "default"] := fun hmem =>
      absurd (hfirst _ hmem) (by decide)
    refine ⟨_, read_default hwords ?_ (.inr rfl)
      (metricOf_attributes hdevice hattributes hmetric), ?_⟩
    · simpa using htype.2.2
    · refine settle_attributes hdevice hattributes hfirst ?_ _
      rw [hrejects]
      simp [htype.1, htype.2.1]

theorem read_other (h : IpLine none (splitWhitespace line)) (s : TextScan) :
    ∃ s', s.read line = some s' ∧ s'.settle = s.settle := by
  generalize hwords : splitWhitespace line = words at h
  cases h with
  | other hnexthop hfirst hsecond =>
    refine ⟨{ pick := s.settle }, ?_, rfl⟩
    unfold TextScan.read
    rw [hwords]
    simp [if_neg hnexthop, if_pos (And.intro hfirst hsecond)]

namespace Shown

variable {Line : Option DefaultRoute → List Text → Prop} {routes : List DefaultRoute}

def text (s : Shown Line routes) : Text := (s.lines.map snd).flatMap fun l => l ++ ['\n']

theorem lines_text (s : Shown Line routes) : Wire.lines s.text = s.lines.map snd := by
  refine lines_printed ?_ ?_
  · intro l hl
    obtain ⟨p, hp, rfl⟩ := mem_map.mp hl
    exact s.oneLine p hp
  · intro l hl
    obtain ⟨p, hp, rfl⟩ := mem_map.mp hl
    exact s.ended p hp

end Shown

/-- The rows of `/proc/net/route` behind their header. -/
def procText {routes : List DefaultRoute} (header : Text) (s : Shown ProcRow routes) : Text :=
  header ++ '\n' :: s.text

def rowsSeen (routes : List DefaultRoute) : List (Seen Text) :=
  (routes.filter DefaultRoute.up).map rowSeen

variable {rows : List (Option DefaultRoute × Text)}

theorem foldlM_considerRow (hshows : ∀ l ∈ rows, ProcRow l.1 (splitWhitespace l.2))
    (hsafe : ∀ r ∈ rows.filterMap fst, r.up = true → isSafeIdentifier r.device = true)
    (seen : List (Seen Text)) :
    (rows.map snd).foldlM considerRow (pickOf seen) =
      some (pickOf (seen ++ rowsSeen (rows.filterMap fst))) := by
  induction rows generalizing seen with
  | nil => simp [rowsSeen]
  | cons l rows ih =>
    obtain ⟨route, line⟩ := l
    have hline := hshows _ mem_cons_self
    have hrest := fun p hp => hshows p (mem_cons_of_mem _ hp)
    rw [map_cons, foldlM_cons]
    cases route with
    | none =>
      rw [considerRow_other hline]
      exact ih hrest hsafe seen
    | some r =>
      have hnext := ih hrest fun r' hr' => hsafe r' (mem_cons_of_mem _ hr')
      rw [considerRow_route hline]
      cases hup : r.up with
      | false =>
        have hseen : rowsSeen (r :: rows.filterMap fst) = rowsSeen (rows.filterMap fst) := by
          simp [rowsSeen, hup]
        show (rows.map snd).foldlM considerRow (pickOf seen) =
          some (pickOf (seen ++ rowsSeen (r :: rows.filterMap fst)))
        rw [hseen]
        exact hnext seen
      | true =>
        have hname := hsafe r mem_cons_self hup
        have hseen : seen ++ rowsSeen (r :: rows.filterMap fst) =
            (seen ++ [rowSeen r]) ++ rowsSeen (rows.filterMap fst) := by
          simp [rowsSeen, hup]
        rw [hname]
        show (rows.map snd).foldlM considerRow
          ((pickOf seen).consider (rowSeen r).1 (rowSeen r).2) =
          some (pickOf (seen ++ rowsSeen (r :: rows.filterMap fst)))
        rw [hseen, ← pickOf_concat]
        exact hnext _

theorem foldlM_considerRow_refused (hshows : ∀ l ∈ rows, ProcRow l.1 (splitWhitespace l.2))
    (hrefused : ∃ r ∈ rows.filterMap fst, r.up = true ∧ isSafeIdentifier r.device = false)
    (pick : DefaultRoutePick Text) : (rows.map snd).foldlM considerRow pick = none := by
  induction rows generalizing pick with
  | nil =>
    obtain ⟨r, hr, _⟩ := hrefused
    cases hr
  | cons l rows ih =>
    obtain ⟨route, line⟩ := l
    have hline := hshows _ mem_cons_self
    have hrest := fun p hp => hshows p (mem_cons_of_mem _ hp)
    rw [map_cons, foldlM_cons]
    cases route with
    | none =>
      rw [considerRow_other hline]
      exact ih hrest hrefused pick
    | some r =>
      rw [considerRow_route hline]
      by_cases hup : r.up = false
      · have hlater : ∃ r' ∈ rows.filterMap fst,
            r'.up = true ∧ isSafeIdentifier r'.device = false := by
          obtain ⟨r', hr', hbad⟩ := hrefused
          rcases mem_cons.mp hr' with rfl | hr'
          · rw [hup] at hbad
            cases hbad.1
          · exact ⟨r', hr', hbad⟩
        rw [if_pos hup]
        exact ih hrest hlater pick
      · rw [if_neg hup]
        by_cases hname : isSafeIdentifier r.device = false
        · rw [if_pos hname]
          rfl
        · have hlater : ∃ r' ∈ rows.filterMap fst,
              r'.up = true ∧ isSafeIdentifier r'.device = false := by
            obtain ⟨r', hr', hbad⟩ := hrefused
            rcases mem_cons.mp hr' with rfl | hr'
            · exact absurd hbad.2 hname
            · exact ⟨r', hr', hbad⟩
          rw [if_neg hname]
          exact ih hrest hlater _

/-- **The rows** give the device that the routes that are up agree on. -/
theorem parseProc_iff {header : Text} (hheader : '\n' ∉ header) (s : Shown ProcRow routes)
    {d : Text} :
    parseProcDefaultRouteDevice (procText header s) = some d ↔
      (∀ r ∈ routes, r.up = true → isSafeIdentifier r.device = true) ∧
        Agreed (rowsSeen routes) d := by
  have hlines : (lines (procText header s)).drop 1 = s.lines.map snd := by
    rw [procText, lines, linesFrom_line [] header s.text hheader, s.lines_text]
    rfl
  have hnames : (∀ r ∈ routes, r.up = true → isSafeIdentifier r.device = true) ↔
      ∀ r ∈ s.lines.filterMap fst, r.up = true → isSafeIdentifier r.device = true := by
    simp only [s.routes.mem_iff]
  have hseen : (rowsSeen (s.lines.filterMap fst)).Perm (rowsSeen routes) :=
    (s.routes.filter _).map _
  rw [hnames, ← agreed_perm hseen, parseProcDefaultRouteDevice, hlines]
  by_cases hsafe : ∀ r ∈ s.lines.filterMap fst, r.up = true → isSafeIdentifier r.device = true
  · have hrun := foldlM_considerRow s.shows hsafe []
    show ((s.lines.map snd).foldlM considerRow (pickOf []) >>= _) = _ ↔ _
    rw [hrun]
    show (pickOf _).device = some d ↔ _
    rw [pickOf_device]
    exact ⟨fun h => ⟨hsafe, h⟩, fun h => h.2⟩
  · have hbad : ∃ r ∈ s.lines.filterMap fst, r.up = true ∧ isSafeIdentifier r.device = false := by
      by_contra hnone
      refine hsafe fun r hr hup => ?_
      by_contra hname
      exact hnone ⟨r, hr, hup, Bool.eq_false_iff.mpr hname⟩
    rw [foldlM_considerRow_refused s.shows hbad]
    constructor
    · intro h
      cases h
    · intro h
      exact absurd h.1 hsafe

theorem foldlM_read {ls : List (Option DefaultRoute × Text)}
    (hshows : ∀ l ∈ ls, IpLine l.1 (splitWhitespace l.2)) {s : TextScan} {seen : List (Seen Text)}
    (hs : s.settle = pickOf seen) : ∃ s', (ls.map snd).foldlM TextScan.read s = some s' ∧
      s'.settle = pickOf (seen ++ (ls.filterMap fst).map lineSeen) := by
  induction ls generalizing s seen with
  | nil => exact ⟨s, rfl, by rw [hs]; simp⟩
  | cons l ls ih =>
    obtain ⟨route, line⟩ := l
    have hline := hshows _ mem_cons_self
    have hrest := fun p hp => hshows p (mem_cons_of_mem _ hp)
    rw [map_cons, foldlM_cons]
    cases route with
    | none =>
      obtain ⟨mid, hmid, hsettle⟩ := read_other hline s
      rw [hmid]
      exact ih hrest (hsettle.trans hs)
    | some r =>
      obtain ⟨mid, hmid, hsettle⟩ := read_route hline s
      rw [hmid]
      have hnext : mid.settle = pickOf (seen ++ [lineSeen r]) := by
        rw [hsettle, hs, pickOf_concat]
      obtain ⟨s', hs', hend⟩ := ih hrest hnext
      refine ⟨s', hs', hend.trans ?_⟩
      simp

/-- **The lines** give the device that all routes agree on. -/
theorem parseDefault_iff (s : Shown IpLine routes) {d : Text} :
    parseDefaultRouteDevice s.text = some d ↔ Agreed (routes.map lineSeen) d := by
  have hstart : ({} : TextScan).settle = pickOf ([] : List (Seen Text)) := rfl
  obtain ⟨s', hs', hend⟩ := foldlM_read s.shows hstart
  have hseen : ((s.lines.filterMap fst).map lineSeen).Perm (routes.map lineSeen) :=
    s.routes.map _
  rw [parseDefaultRouteDevice, s.lines_text, hs', ← agreed_perm hseen]
  show s'.settle.device = some d ↔ _
  rw [hend, nil_append, pickOf_device]

theorem rowsSeen_eq
    (h : ∀ r ∈ routes, r.up = true ∧ r.marked = false ∧ isSafeIdentifier r.device = true) :
    rowsSeen routes = routes.map lineSeen := by
  have hup : routes.filter DefaultRoute.up = routes :=
    filter_eq_self.mpr fun r hr => (h r hr).1
  rw [rowsSeen, hup]
  refine map_congr_left fun r hr => ?_
  obtain ⟨_, hmarked, hsafe⟩ := h r hr
  simp [rowSeen, lineSeen, hmarked, hsafe]

/-- **The default route.**  Each reader gives the device that the routes it looks at agree on at
their lowest metric, whatever the order of the lines, and the two agree on routes that are up and
unmarked. -/
theorem defaultRoute_device {routes : List DefaultRoute} {header header' : Text}
    (hheader : '\n' ∉ header) (hheader' : '\n' ∉ header') (rows rows' : Shown ProcRow routes)
    (ls ls' : Shown IpLine routes) :
    (∀ d, parseProcDefaultRouteDevice (procText header rows) = some d ↔
      (∀ r ∈ routes, r.up = true → isSafeIdentifier r.device = true) ∧ Agreed (rowsSeen routes) d) ∧
    (∀ d, parseDefaultRouteDevice ls.text = some d ↔ Agreed (routes.map lineSeen) d) ∧
    parseProcDefaultRouteDevice (procText header rows) =
      parseProcDefaultRouteDevice (procText header' rows') ∧
    parseDefaultRouteDevice ls.text = parseDefaultRouteDevice ls'.text ∧
    ((∀ r ∈ routes, r.up = true ∧ r.marked = false ∧ isSafeIdentifier r.device = true) →
      parseProcDefaultRouteDevice (procText header rows) = parseDefaultRouteDevice ls.text) := by
  refine ⟨fun d => parseProc_iff hheader rows, fun d => parseDefault_iff ls, ?_, ?_, fun h => ?_⟩
  · exact Option.ext fun d => (parseProc_iff hheader rows).trans (parseProc_iff hheader' rows').symm
  · exact Option.ext fun d => (parseDefault_iff ls).trans (parseDefault_iff ls').symm
  · refine Option.ext fun d => ?_
    rw [parseProc_iff hheader rows, parseDefault_iff ls, rowsSeen_eq h]
    exact ⟨fun hboth => hboth.2, fun hagreed => ⟨fun r hr _ => (h r hr).2.2, hagreed⟩⟩

def slowRoute : DefaultRoute := ⟨100, by decide, lit "slow", true, false, false⟩

def rejectRoute : DefaultRoute := ⟨20, by decide, lit "fast", true, true, false⟩

/-- The header of `/proc/net/route`. -/
def procHeader : Text :=
  lit "Iface Destination Gateway Flags RefCnt Use Metric Mask MTU Window IRTT"

def blockedRows : Shown ProcRow [slowRoute, rejectRoute] where
  lines := [(some slowRoute, lit "slow 00000000 0100000A 0003 0 0 100 00000000 0 0 0"),
    (some rejectRoute, lit "fast 00000000 0100000A 0203 0 0 20 00000000 0 0 0")]
  shows l hl := by
    have hmask : HexNumeral 0 (lit "00000000") := ⟨by decide, by decide, by decide⟩
    rcases mem_cons.mp hl with rfl | hl
    · have hflags : HexNumeral 3 (lit "0003") := ⟨by decide, by decide, by decide⟩
      have hwords : splitWhitespace (lit "slow 00000000 0100000A 0003 0 0 100 00000000 0 0 0") =
          slowRoute.device :: lit "00000000" :: lit "0100000A" :: lit "0003" :: lit "0" ::
            lit "0" :: display slowRoute.metric :: lit "00000000" ::
            [lit "0", lit "0", lit "0"] := by decide +kernel
      show ProcRow (some slowRoute) (splitWhitespace _)
      rw [hwords]
      exact .route slowRoute _ hflags hmask (by decide) (by decide)
    · obtain rfl := mem_singleton.mp hl
      have hflags : HexNumeral 0x203 (lit "0203") := ⟨by decide, by decide, by decide⟩
      have hwords : splitWhitespace (lit "fast 00000000 0100000A 0203 0 0 20 00000000 0 0 0") =
          rejectRoute.device :: lit "00000000" :: lit "0100000A" :: lit "0203" :: lit "0" ::
            lit "0" :: display rejectRoute.metric :: lit "00000000" ::
            [lit "0", lit "0", lit "0"] := by decide +kernel
      show ProcRow (some rejectRoute) (splitWhitespace _)
      rw [hwords]
      exact .route rejectRoute _ hflags hmask (by decide) (by decide)
  oneLine := by decide +kernel
  ended := by decide +kernel
  routes := .refl _

def blockedTexts : List (Option DefaultRoute × Text) :=
  [(some rejectRoute, lit "unreachable default metric 20"),
    (some slowRoute, lit "default via 192.0.2.1 dev slow metric 100")]

theorem blockedTexts_show : ∀ l ∈ blockedTexts, IpLine l.1 (splitWhitespace l.2) := by
  intro l hl
  rcases mem_cons.mp hl with rfl | hl
  · have hwords : splitWhitespace (lit "unreachable default metric 20") =
        lit "unreachable" :: lit "default" :: [Attribute.metric].flatMap rejectRoute.words := by
      decide +kernel
    rw [hwords]
    refine .typed rejectRoute (by decide) (by decide) rfl (by decide)
      ⟨.inr rfl, .inl rfl, ?_, ?_, ?_⟩ <;> simp [rejectRoute]
  · obtain rfl := mem_singleton.mp hl
    have hwords : splitWhitespace (lit "default via 192.0.2.1 dev slow metric 100") =
        (if false then [lit "unicast"] else []) ++ lit "default" ::
          [Attribute.other (lit "via"), .other (lit "192.0.2.1"), .dev, .metric].flatMap
            slowRoute.words := by decide +kernel
    rw [hwords]
    refine .unicast slowRoute false rfl (by decide) ⟨.inl ?_, .inl ?_, ?_, ?_, ?_⟩
    · simp
    · decide
    · simp [slowRoute]
    · simp
    · intro word hword
      simp only [mem_cons, Attribute.other.injEq, not_mem_nil, reduceCtorEq, or_false] at hword
      rcases hword with rfl | rfl <;> decide

theorem blockedTexts_oneLine : ∀ l ∈ blockedTexts, '\n' ∉ l.2 := by decide +kernel

theorem blockedTexts_ended : ∀ l ∈ blockedTexts, l.2.getLast? ≠ some '\r' := by decide +kernel

theorem blockedTexts_routes :
    (blockedTexts.filterMap fst).Perm [slowRoute, rejectRoute] := .swap _ _ _

def blockedLines : Shown IpLine [slowRoute, rejectRoute] where
  lines := blockedTexts
  shows := blockedTexts_show
  oneLine := blockedTexts_oneLine
  ended := blockedTexts_ended
  routes := blockedTexts_routes

theorem blocked_agree : parseProcDefaultRouteDevice (procText procHeader blockedRows) =
    parseDefaultRouteDevice blockedLines.text :=
  (defaultRoute_device (by decide) (by decide : '\n' ∉ procHeader) blockedRows blockedRows
    blockedLines blockedLines).2.2.2.2 (by decide)

theorem reject_blocks :
    ([slowRoute, rejectRoute].filter fun r => r.up && !r.rejects && !r.marked).map
      DefaultRoute.device = [lit "slow"] ∧
    parseProcDefaultRouteDevice (procText procHeader blockedRows) = none ∧
    parseDefaultRouteDevice blockedLines.text = none := by
  refine ⟨?_, ?_, ?_⟩ <;> decide +kernel

end CakeAutorate.Routing
