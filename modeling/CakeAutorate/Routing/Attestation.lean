/-
# The attestation of an explicit route

`ExplicitRouteAuthority` of `routing.rs`: before traffic is sent with a mark of its own, the
listing of the policy rules must show that the mark reaches the configured table before
any other rule can take the packet, and the listing of that table that every route in it
leaves by the bound device.  `Shows` and `ListsRoutes` say what the kernel holds when it
prints such a listing; a line that the attestation does not read may stand for any rule.
-/

import CakeAutorate.Protocol.Request
import CakeAutorate.Routing.PolicyRouting
import Mathlib.Data.List.Sort

namespace CakeAutorate.Routing

open Wire Protocol List Prod

/-- `str::trim`. -/
def trim (t : Text) : Text := ((t.dropWhile isWhitespace).reverse.dropWhile isWhitespace).reverse

/-- `u8::is_ascii_whitespace`. -/
def isAsciiWhitespace (c : Char) : Bool :=
  c == ' ' || c == '\t' || c == '\n' || c == '\r' || c.toNat == 0xc

def wordsFrom : Text → Text → List Text
  | word, [] => if word.isEmpty then [] else [word.reverse]
  | word, c :: cs =>
    if isAsciiWhitespace c then
      if word.isEmpty then wordsFrom [] cs else word.reverse :: wordsFrom [] cs
    else wordsFrom (c :: word) cs

/-- `str::split_ascii_whitespace`. -/
def splitAsciiWhitespace (t : Text) : List Text := wordsFrom [] t

/-- `str::split_once`, with a default for what follows. -/
def splitOnceOr (c : Char) (t fallback : Text) : Text × Text := (splitOnce c t).getD (t, fallback)

def parseOctet (t : Text) : Option UInt8 :=
  if t.length ≤ 3 && (t.head? != some '0' || t.length == 1) && t.all Char.isDigit then
    (parseUInt 256 t).map UInt8.ofNat
  else none

/-- `Ipv4Addr::from_str`. -/
def parseIpv4 (t : Text) : Option Ipv4Addr := do
  let (a, rest) ← splitOnce '.' t
  let (b, rest) ← splitOnce '.' rest
  let (c, d) ← splitOnce '.' rest
  return ⟨← parseOctet a, ← parseOctet b, ← parseOctet c, ← parseOctet d⟩

/-- `u8::is_ascii_hexdigit`. -/
def isHexDigit (c : Char) : Bool :=
  ('0' ≤ c && c ≤ '9') || ('a' ≤ c && c ≤ 'f') || ('A' ≤ c && c ≤ 'F')

def hexDigitValue (c : Char) : ℕ :=
  if c ≤ '9' then c.toNat - '0'.toNat
  else if c ≤ 'F' then c.toNat - 'A'.toNat + 10 else c.toNat - 'a'.toNat + 10

/-- `u32::from_str_radix(_, 16)`, on hexadecimal digits. -/
def parseHexDigits (t : Text) : Option (BitVec 32) :=
  let n := t.foldl (fun n c => 16 * n + hexDigitValue c) 0
  if n < 2 ^ 32 then some (BitVec.ofNat 32 n) else none

def parseRouteU32 (value : Text) : Option (BitVec 32) :=
  match (stripPrefix (lit "0x") value).or (stripPrefix (lit "0X") value) with
  | some hex => if hex.isEmpty || !hex.all isHexDigit then none else parseHexDigits hex
  | none =>
    if !value.isEmpty && value.all Char.isDigit then
      (parseUInt (2 ^ 32) value).map (BitVec.ofNat 32)
    else none

def isSafeIdentifier (value : Text) : Bool :=
  !value.isEmpty && decide (byteLength value ≤ 64)
    && value.all fun c => isAsciiAlphanumeric c || (lit "-_.:@").contains c

structure ExplicitRouteAuthority where
  source : Ipv4Addr
  table : ℕ
  mark : BitVec 32
  mask : BitVec 32
  deriving DecidableEq

namespace ExplicitRouteAuthority

/-- `ExplicitRouteAuthority::from_fields`, in the explicit mode. -/
def fromExplicitFields (source table mark mask : Text) : Except String ExplicitRouteAuthority := do
  let source ← orError (parseIpv4 source) "route_source_ipv4 must be an IPv4 address"
  check (!(source.a == 0 || source.isLoopback || decide (source.a ≥ 224)))
    "route_source_ipv4 must be a unicast source"
  check (!(table.isEmpty || !table.all Char.isDigit)) "route_table must be a nonzero numeric table"
  let table ← orError ((parseUInt (2 ^ 32) table).filter (· != 0))
    "route_table must be a nonzero numeric table"
  let mark ← orError (parseRouteU32 mark) "route_fwmark must be a u32 decimal or hex value"
  let mask ← orError (parseRouteU32 mask) "route_fwmark_mask must be a u32 decimal or hex value"
  check (!(mark == 0 || mask == 0 || mark &&& ~~~mask != 0))
    "explicit route mark must be nonzero and contained in its nonzero mask"
  return { source, table, mark, mask }

def fromFields (mode source table mark mask : Text) :
    Except String (Option ExplicitRouteAuthority) :=
  if mode ≠ lit "explicit" then
    if [source, table, mark, mask].all List.isEmpty then .ok none
    else .error "explicit route authority fields require route_mode=explicit"
  else (fromExplicitFields source table mark mask).map some

variable (authority : ExplicitRouteAuthority)

abbrev Row := ℕ × List Text

/-- `attest_rules`, one line. -/
def parseRow (line : Text) : Except String Row := do
  let (priority, body) ← orError (splitOnce ':' line) "explicit-rule-invalid"
  let priority ← orError (parseUInt (2 ^ 32) (trim priority)) "explicit-rule-invalid"
  return (priority, splitAsciiWhitespace body)

/-- `attest_rules`, the lines after `count` of them. -/
def parseRows : ℕ → List Text → Except String (List Row)
  | _, [] => .ok []
  | count, line :: lines => do
    check (count != 4096) "explicit-rule-inventory-too-large"
    let row ← parseRow line
    let rows ← parseRows (count + 1) lines
    return row :: rows

/-- `attest_rules`, the lines that are not blank. -/
def ruleLines (rules : Text) : List Text := (lines rules).filter fun line => !(trim line).isEmpty

/-- `attest_rules`, the rows by priority. -/
def sortRows (rows : List Row) : List Row := rows.insertionSort fun a b => a.1 ≤ b.1

/-- `attest_rules`, two rows of one priority. -/
def ambiguous (rows : List Row) : Bool := (rows.zip rows.tail).any fun pair => pair.1.1 == pair.2.1

/-- `attest_rules`, the rule that looks up the local table. -/
def isLocalRule (row : Row) : Bool :=
  row.1 == 0 && (row.2 == ["from", "all", "lookup", "local"].map lit
    || row.2 == ["from", "all", "lookup", "255"].map lit)

/-- `attest_rules`, the rule that looks up the main table. -/
def isMainRule (body : List Text) : Bool :=
  body == ["from", "all", "lookup", "main"].map lit
    || body == ["from", "all", "lookup", "254"].map lit

/-- `attest_rules`, the mark and mask of a selector. -/
def parseSelector (selector : Text) : Except String (BitVec 32 × BitVec 32) := do
  let (mark, mask) := splitOnceOr '/' selector (lit "0xffffffff")
  let mark ← orError (parseRouteU32 mark) "explicit-rule-mark-invalid"
  let mask ← orError (parseRouteU32 mask) "explicit-rule-mark-invalid"
  check (!(mask == 0 || mark &&& ~~~mask != 0)) "explicit-rule-mark-invalid"
  return (mark, mask)

/-- `strip_suffix("/32").unwrap_or(source)`. -/
def stripHost (source : Text) : Text :=
  ((stripPrefix (lit "23/") source.reverse).map List.reverse).getD source

/-- `attest_rules`, whether a source selector is for all sources or the configured one. -/
def sourceMatches (source : Text) : Bool :=
  source == lit "all" || parseIpv4 (stripHost source) == some authority.source

/-- `attest_rules`, a rule whose mark the packets may carry. -/
def attestRow (priority : ℕ) (source table : Text) (mark mask : BitVec 32) : Except String ℕ :=
  if authority.sourceMatches source && mark == authority.mark && mask == authority.mask
      && parseUInt (2 ^ 32) table == some authority.table then .ok priority
  else .error "explicit-earlier-rule-unverified"

/-- `attest_rules`, the rows after the local one. -/
def attestRows : List Row → Except String ℕ
  | [] => .error "explicit-mark-table-rule-missing"
  | (priority, body) :: rows =>
    if isMainRule body then .error "explicit-mark-table-rule-missing"
    else match body with
      | [from_, source, fwmark, selector, lookup, table] =>
        if from_ = lit "from" ∧ fwmark = lit "fwmark" ∧ lookup = lit "lookup" then
          match parseSelector selector with
          | .error e => .error e
          | .ok (mark, mask) =>
            if (mark ^^^ authority.mark) &&& mask &&& authority.mask ≠ 0 then attestRows rows
            else authority.attestRow priority source table mark mask
        else .error "explicit-earlier-rule-unverified"
      | _ => .error "explicit-earlier-rule-unverified"

def attestRules (rules : Text) : Except String ℕ := do
  check (!decide (byteLength rules > 256 * 1024)) "explicit-rule-inventory-too-large"
  let rows ← parseRows 0 (ruleLines rules)
  check (!ambiguous (sortRows rows)) "explicit-rule-priority-ambiguous"
  check ((sortRows rows).head?.any isLocalRule) "explicit-local-rule-unverified"
  authority.attestRows (sortRows rows).tail

end ExplicitRouteAuthority

/-- `serde_json::Value`; of a number only what `as_u64` answers. -/
inductive JsonValue where
  | null
  | bool (value : Bool)
  | number (unsigned : Option ℕ)
  | string (value : Text)
  | array (items : List JsonValue)
  | object (entries : List (Text × JsonValue))

namespace JsonValue

def asStr : JsonValue → Option Text
  | .string value => some value
  | _ => none

def asU64 : JsonValue → Option ℕ
  | .number unsigned => unsigned
  | _ => none

def asArray : JsonValue → Option (List JsonValue)
  | .array items => some items
  | _ => none

def asObject : JsonValue → Option (List (Text × JsonValue))
  | .object entries => some entries
  | _ => none

end JsonValue

/-- `Map::get`. -/
def entry (entries : List (Text × JsonValue)) (key : String) : Option JsonValue :=
  (entries.find? fun e => e.1 == lit key).map snd

def routeKeys : List Text :=
  ["type", "dst", "gateway", "dev", "protocol", "scope", "prefsrc", "metric", "flags", "table"].map lit

/-- `attest_table_routes`, the number of a table: a number, or its digits in a string. -/
def tableNumber (value : JsonValue) : Option ℕ :=
  (value.asU64.filter (· < 2 ^ 32)).or (value.asStr.bind (parseUInt (2 ^ 32)))

namespace ExplicitRouteAuthority

variable (authority : ExplicitRouteAuthority) (device : Text)

/-- `attest_table_routes`, the flags of a route. -/
def attestFlags (entries : List (Text × JsonValue)) : Except String Unit :=
  match entry entries "flags" with
  | none => .ok ()
  | some flags => do
    let flags ← orError flags.asArray "explicit-route-entry-invalid"
    check (!flags.any fun flag => flag.asStr != some (lit "onlink")) "explicit-route-flags-unsupported"

/-- `attest_table_routes`, a destination: whether it is the default one. -/
def attestDestination (destination : Text) : Except String Bool :=
  if destination = lit "default" ∨ destination = lit "0.0.0.0/0" then .ok true
  else
    let (address, length) := splitOnceOr '/' destination (lit "32")
    if (parseIpv4 address).isNone || !(parseUInt 256 length).any (· ≤ 32) then
      .error "explicit-route-destination-invalid"
    else .ok false

/-- `attest_table_routes`, one route: whether it is a default route. -/
def attestRoute (route : JsonValue) : Except String Bool := do
  let entries ← orError route.asObject "explicit-route-entry-invalid"
  check (!entries.any fun e => !routeKeys.contains e.1) "explicit-route-extension-unsupported"
  check (!((entry entries "type").any (fun kind => kind.asStr != some (lit "unicast"))
    || (entry entries "dev").bind JsonValue.asStr != some device)) "explicit-route-egress-unverified"
  check ((entry entries "table").all fun table => tableNumber table == some authority.table)
    "explicit-route-table-mismatch"
  attestFlags entries
  check (!(entry entries "gateway").any fun gateway => (gateway.asStr.bind parseIpv4).isNone)
    "explicit-route-gateway-invalid"
  let destination ← orError ((entry entries "dst").bind JsonValue.asStr)
    "explicit-route-destination-invalid"
  attestDestination destination

/-- `attest_table_routes`, all routes: whether one is a default route. -/
def attestRoutes : List JsonValue → Except String Bool
  | [] => .ok false
  | route :: routes => do
    let default ← authority.attestRoute device route
    let more ← attestRoutes routes
    return default || more

/-- `ExplicitRouteAuthority::attest_table_routes`, with `serde_json::from_slice` as given. -/
def attestTableRoutes (fromSlice : List UInt8 → Option JsonValue) (input : List UInt8) :
    Except String Unit := do
  check (!(!isSafeIdentifier device || decide (input.length > 256 * 1024)))
    "explicit-route-inventory-invalid"
  let value ← orError (fromSlice input) "explicit-route-inventory-invalid"
  let routes ← orError value.asArray "explicit-route-inventory-invalid"
  check (!decide (routes.length > 4096)) "explicit-route-inventory-invalid"
  let default ← authority.attestRoutes device routes
  check default "explicit-route-default-missing"

end ExplicitRouteAuthority

/-- A packet, as the rules and routes see it. -/
structure Packet where
  source : Ipv4Addr
  destination : Ipv4Addr
  mark : BitVec 32

def InPrefix (address : Ipv4Addr) (length : ℕ) (ip : Ipv4Addr) : Prop :=
  ip.bits / 2 ^ (32 - length) = address.bits / 2 ^ (32 - length)

def NamesPrefix (text : Text) (address : Ipv4Addr) (length : ℕ) : Prop :=
  parseIpv4 (splitOnceOr '/' text (lit "32")).1 = some address ∧
    parseUInt 256 (splitOnceOr '/' text (lit "32")).2 = some length ∧ length ≤ 32

def SelectsSource (source : Text) (ip : Ipv4Addr) : Prop :=
  source = lit "all" ∨ ∃ address length, NamesPrefix source address length ∧ InPrefix address length ip

def SelectsMark (selector : Text) (packetMark : BitVec 32) : Prop :=
  ∃ mark mask, parseRouteU32 (splitOnceOr '/' selector (lit "0xffffffff")).1 = some mark ∧
    parseRouteU32 (splitOnceOr '/' selector (lit "0xffffffff")).2 = some mask ∧
    packetMark &&& mask = mark

/-- **A word names a table**: a number is its own, `local` is the local table, and any other word may
name any table, as `rt_tables` has it. -/
def NamesTable (text : Text) (table : ℕ) : Prop :=
  (∀ n, parseUInt (2 ^ 32) text = some n → table = n) ∧ (text = lit "local" → table = 255)

/-- **A rule that is printed as some words.**  Words of another form say nothing. -/
structure RuleShown (body : List Text) (rule : PolicyRouting.Rule Packet) : Prop where
  plain : ∀ table, body = [lit "from", lit "all", lit "lookup", table] →
    (∀ packet, rule.selects packet) ∧ NamesTable table rule.table
  marked : ∀ source selector table,
    body = [lit "from", source, lit "fwmark", selector, lit "lookup", table] →
    (∀ packet, rule.selects packet ↔
      SelectsSource source packet.source ∧ SelectsMark selector packet.mark) ∧
    NamesTable table rule.table

def LineShown (line : Text) (rule : PolicyRouting.Rule Packet) : Prop :=
  ∀ priority body, splitOnce ':' line = some (priority, body) →
    (∀ n, parseUInt (2 ^ 32) (trim priority) = some n → rule.priority = n) ∧
      RuleShown (splitAsciiWhitespace body) rule

def Shows (rules : Text) (kernel : List (PolicyRouting.Rule Packet)) : Prop :=
  List.Forall₂ LineShown (ExplicitRouteAuthority.ruleLines rules) kernel

/-- A rule that is printed as a line, where `named` are the tables that the words name. -/
def shownRule (named : Text → ℕ) (line : Text) : PolicyRouting.Rule Packet :=
  let (priority, body) := splitOnceOr ':' line []
  let priority := (parseUInt (2 ^ 32) (trim priority)).getD 0
  let tableOf table :=
    if table = lit "local" then 255 else (parseUInt (2 ^ 32) table).getD (named table)
  match splitAsciiWhitespace body with
  | [_, _, _, table] => ⟨priority, fun _ => True, tableOf table⟩
  | [_, source, _, selector, _, table] => ⟨priority, fun packet =>
      SelectsSource source packet.source ∧ SelectsMark selector packet.mark, tableOf table⟩
  | _ => ⟨priority, fun _ => False, 0⟩

theorem lineShown_shownRule (named : Text → ℕ) (line : Text) :
    LineShown line (shownRule named line) := by
  intro priority body hsplit
  have hlocal : parseUInt (2 ^ 32) (lit "local") = none := by decide
  have hnames : ∀ table, NamesTable table (if table = lit "local" then 255
      else (parseUInt (2 ^ 32) table).getD (named table)) := by
    refine fun table => ⟨fun n hn => ?_, fun h => if_pos h⟩
    have hother : table ≠ lit "local" := by
      rintro rfl
      rw [hlocal] at hn
      cases hn
    rw [if_neg hother, hn, Option.getD_some]
  simp only [shownRule, splitOnceOr, hsplit, Option.getD_some]
  refine ⟨fun n hn => ?_, fun table hbody => ?_, fun source selector table hbody => ?_⟩
  · split <;> simp only [hn, Option.getD_some]
  · simp only [hbody]
    exact ⟨fun _ => trivial, hnames table⟩
  · simp only [hbody]
    exact ⟨fun _ => trivial, hnames table⟩

/-- **Every listing is shown by some kernel**, whatever tables its words name. -/
theorem shows_shownRule (named : Text → ℕ) (rules : Text) :
    Shows rules ((ExplicitRouteAuthority.ruleLines rules).map (shownRule named)) :=
  List.forall₂_map_right_iff.2 (List.forall₂_same.2 fun line _ => lineShown_shownRule named line)

/-- **A route that is printed as a JSON object.** -/
structure RouteShown (value : JsonValue) (route : PolicyRouting.Route Packet Text) : Prop where
  device : ∀ entries device, value.asObject = some entries →
    (entry entries "dev").bind JsonValue.asStr = some device → route.device = device
  default : ∀ entries destination, value.asObject = some entries →
    (entry entries "dst").bind JsonValue.asStr = some destination →
    destination = lit "default" ∨ destination = lit "0.0.0.0/0" →
    route.length = 0 ∧ ∀ packet, route.covers packet
  covers : ∀ entries destination address length, value.asObject = some entries →
    (entry entries "dst").bind JsonValue.asStr = some destination →
    NamesPrefix destination address length →
    route.length = length ∧ ∀ packet, route.covers packet ↔ InPrefix address length packet.destination

def ListsRoutes (fromSlice : List UInt8 → Option JsonValue) (input : List UInt8)
    (table : List (PolicyRouting.Route Packet Text)) : Prop :=
  ∃ value routes, fromSlice input = some value ∧ value.asArray = some routes ∧
    List.Forall₂ RouteShown routes table

variable {t : Text} {ip : Ipv4Addr}

theorem slash_not_mem_octet {n : UInt8} (h : parseOctet t = some n) : '/' ∉ t := by
  unfold parseOctet at h
  split at h
  · rename_i hdigits
    simp only [Bool.and_eq_true, all_eq_true] at hdigits
    intro hmem
    exact absurd (hdigits.2 '/' hmem) (by decide)
  · cases h

theorem slash_not_mem_ipv4 (h : parseIpv4 t = some ip) : '/' ∉ t := by
  simp only [parseIpv4, Option.bind_eq_bind, Option.bind_eq_some_iff] at h
  obtain ⟨⟨a, rest⟩, hfirst, ⟨b, rest'⟩, hsecond, ⟨c, d⟩, hthird, _, ha, _, hb, _, hc, _, hd, -⟩ := h
  dsimp only at hsecond hthird ha hb hc hd
  rw [splitOnce_eq_some hfirst, splitOnce_eq_some hsecond, splitOnce_eq_some hthird]
  simp [slash_not_mem_octet ha, slash_not_mem_octet hb, slash_not_mem_octet hc,
    slash_not_mem_octet hd]

theorem namesPrefix_host (h : parseIpv4 t = some ip) : NamesPrefix t ip 32 := by
  have hsplit : splitOnceOr '/' t (lit "32") = (t, lit "32") := by
    rw [splitOnceOr, splitOnce_eq_none (slash_not_mem_ipv4 h), Option.getD_none]
  have hlength : parseUInt 256 (lit "32") = some 32 := by decide
  rw [NamesPrefix, hsplit]
  exact ⟨h, hlength, le_refl _⟩

theorem namesPrefix_host_length (h : parseIpv4 t = some ip) :
    NamesPrefix (t ++ lit "/32") ip 32 := by
  have hsplit : splitOnceOr '/' (t ++ lit "/32") (lit "32") = (t, lit "32") := by
    have happend : splitOnce '/' (t ++ '/' :: lit "32") = some (t, lit "32") :=
      splitOnce_append (lit "32") (slash_not_mem_ipv4 h)
    rw [splitOnceOr, show t ++ lit "/32" = t ++ '/' :: lit "32" from rfl, happend, Option.getD_some]
  have hlength : parseUInt 256 (lit "32") = some 32 := by decide
  rw [NamesPrefix, hsplit]
  exact ⟨h, hlength, le_refl _⟩

namespace ExplicitRouteAuthority

variable {authority : ExplicitRouteAuthority}

theorem selectsSource_of_matches {source : Text} (h : authority.sourceMatches source = true) :
    SelectsSource source authority.source := by
  simp only [sourceMatches, Bool.or_eq_true, beq_iff_eq] at h
  rcases h with h | h
  · exact .inl h
  · refine .inr ⟨authority.source, 32, ?_, rfl⟩
    unfold stripHost at h
    cases hstrip : stripPrefix (lit "23/") source.reverse with
    | none =>
      rw [hstrip] at h
      exact namesPrefix_host h
    | some rest =>
      rw [hstrip] at h
      have hsource : source = rest.reverse ++ lit "/32" := by
        unfold stripPrefix at hstrip
        split at hstrip
        · rename_i hstarts
          obtain ⟨tail, htail⟩ := hstarts
          cases hstrip
          have hreverse := congrArg List.reverse htail
          rw [reverse_reverse, reverse_append] at hreverse
          rw [← htail, drop_left, ← hreverse]
          rfl
        · cases hstrip
      rw [hsource]
      exact namesPrefix_host_length h

theorem not_matches_of_differs {mark mask packetMark : BitVec 32}
    (hpacket : packetMark &&& authority.mask = authority.mark)
    (hdiffer : (mark ^^^ authority.mark) &&& mask &&& authority.mask ≠ 0) :
    packetMark &&& mask ≠ mark := by
  intro hmatch
  apply hdiffer
  rw [← hmatch, ← hpacket]
  ext i hi
  have hzero : (0 : BitVec 32)[i] = false := BitVec.getElem_zero hi
  rw [hzero]
  simp only [BitVec.getElem_and, BitVec.getElem_xor]
  cases packetMark[i] <;> cases mask[i] <;> cases authority.mask[i] <;> rfl

variable {rows : List Row} {rule : PolicyRouting.Rule Packet}
  {kernel : List (PolicyRouting.Rule Packet)}

theorem parseRows_eq_ok {count : ℕ} {lines : List Text} (h : parseRows count lines = .ok rows) :
    List.Forall₂ (fun line row => parseRow line = .ok row) lines rows := by
  induction lines generalizing count rows with
  | nil =>
    cases h
    exact .nil
  | cons line lines ih =>
    simp only [parseRows, bind_ok, exists_unit] at h
    obtain ⟨-, row, hrow, rest, hrest, h⟩ := h
    cases h
    exact .cons hrow (ih hrest)

def RowShown (row : Row) (rule : PolicyRouting.Rule Packet) : Prop :=
  rule.priority = row.1 ∧ RuleShown row.2 rule

theorem rowShown_of_lineShown {line : Text} {row : Row} (hrow : parseRow line = .ok row)
    (h : LineShown line rule) : RowShown row rule := by
  simp only [parseRow, bind_ok, orError_eq_ok] at hrow
  obtain ⟨⟨priority, body⟩, hsplit, n, hn, hrow⟩ := hrow
  cases hrow
  obtain ⟨hpriority, hshown⟩ := h priority body hsplit
  exact ⟨hpriority n hn, hshown⟩

theorem rowsShown {lines : List Text}
    (hrows : List.Forall₂ (fun line row => parseRow line = .ok row) lines rows)
    (h : List.Forall₂ LineShown lines kernel) : List.Forall₂ RowShown rows kernel := by
  induction hrows generalizing kernel with
  | nil =>
    cases h
    exact .nil
  | cons hrow _ ih =>
    cases h with
    | cons hline hrest => exact .cons (rowShown_of_lineShown hrow hline) (ih hrest)

section

variable (h : List.Forall₂ RowShown rows kernel)
include h

theorem RowsShown.priorities : kernel.map PolicyRouting.Rule.priority = rows.map fst := by
  induction h with
  | nil => rfl
  | cons hrow _ ih => rw [map_cons, map_cons, ih, hrow.1]

theorem RowsShown.exists_rule {row : Row} (hrow : row ∈ rows) :
    ∃ rule ∈ kernel, RowShown row rule := by
  induction h with
  | nil => cases hrow
  | cons hfirst _ ih =>
    rcases mem_cons.1 hrow with rfl | hrow
    · exact ⟨_, mem_cons_self, hfirst⟩
    · obtain ⟨rule, hrule, hshown⟩ := ih hrow
      exact ⟨rule, mem_cons_of_mem _ hrule, hshown⟩

theorem RowsShown.exists_row (hrule : rule ∈ kernel) : ∃ row ∈ rows, RowShown row rule := by
  induction h with
  | nil => cases hrule
  | cons hfirst _ ih =>
    rcases mem_cons.1 hrule with rfl | hrule
    · exact ⟨_, mem_cons_self, hfirst⟩
    · obtain ⟨row, hrow, hshown⟩ := ih hrule
      exact ⟨row, mem_cons_of_mem _ hrow, hshown⟩

end

theorem local_of_isLocalRule {row : Row} (h : (some row).any isLocalRule = true)
    (hshown : RowShown row rule) : rule.priority = 0 ∧ rule.table = 255 := by
  simp only [Option.any_some, isLocalRule, Bool.and_eq_true, Bool.or_eq_true, beq_iff_eq] at h
  obtain ⟨hpriority, hbody⟩ := h
  refine ⟨hshown.1.trans hpriority, ?_⟩
  rcases hbody with hbody | hbody
  · exact (hshown.2.plain (lit "local") hbody).2.2 rfl
  · exact (hshown.2.plain (lit "255") hbody).2.1 255 (by decide)

theorem strict_of_not_ambiguous (hsorted : rows.Pairwise fun a b => a.1 ≤ b.1)
    (h : ambiguous rows = false) : rows.Pairwise fun a b => a.1 < b.1 := by
  induction rows with
  | nil => exact .nil
  | cons row rows ih =>
    cases rows with
    | nil => exact pairwise_singleton _ _
    | cons next rows =>
      obtain ⟨hle, hrest⟩ := pairwise_cons.1 hsorted
      simp only [ambiguous, tail_cons, zip_cons_cons, any_cons,
        Bool.or_eq_false_iff, beq_eq_false_iff_ne] at h
      obtain ⟨hne, htail⟩ := h
      have hstrict := ih hrest htail
      have hlt : row.1 < next.1 := lt_of_le_of_ne (hle next mem_cons_self) hne
      refine pairwise_cons.2 ⟨fun other hother => ?_, hstrict⟩
      rcases mem_cons.1 hother with rfl | hother
      · exact hlt
      · exact hlt.trans ((pairwise_cons.1 hstrict).1 other hother)

def Skipped (authority : ExplicitRouteAuthority) (body : List Text) : Prop :=
  ∃ source selector table mark mask,
    body = [lit "from", source, lit "fwmark", selector, lit "lookup", table] ∧
      parseSelector selector = .ok (mark, mask) ∧
      (mark ^^^ authority.mark) &&& mask &&& authority.mask ≠ 0

def Selected (authority : ExplicitRouteAuthority) (body : List Text) : Prop :=
  ∃ source selector table, body = [lit "from", source, lit "fwmark", selector, lit "lookup", table] ∧
    parseSelector selector = .ok (authority.mark, authority.mask) ∧
    authority.sourceMatches source = true ∧ parseUInt (2 ^ 32) table = some authority.table

/-- **What the scan of the rows shows**: the row of the authority, after rows that its
packets cannot match. -/
theorem attestRows_eq_ok {p : ℕ} (h : authority.attestRows rows = .ok p) :
    ∃ before body after, rows = before ++ (p, body) :: after ∧
      (∀ row ∈ before, authority.Skipped row.2) ∧ authority.Selected body := by
  induction rows with
  | nil => cases h
  | cons row rows ih =>
    obtain ⟨priority, body⟩ := row
    unfold attestRows at h
    split at h
    · cases h
    · split at h
      · rename_i from_ source fwmark selector lookup table _
        split at h
        · rename_i hwords
          obtain ⟨rfl, rfl, rfl⟩ := hwords
          split at h
          · cases h
          · rename_i mark mask hselector
            split at h
            · rename_i hdiffer
              obtain ⟨before, body, after, rfl, hbefore, hselected⟩ := ih h
              refine ⟨_ :: before, body, after, rfl, fun row hrow => ?_, hselected⟩
              rcases mem_cons.1 hrow with rfl | hrow
              · exact ⟨source, selector, table, mark, mask, rfl, hselector, hdiffer⟩
              · exact hbefore row hrow
            · unfold attestRow at h
              split at h
              · rename_i hmatch
                simp only [Bool.and_eq_true, beq_iff_eq] at hmatch
                obtain ⟨⟨⟨hsource, rfl⟩, rfl⟩, htable⟩ := hmatch
                cases h
                exact ⟨[], _, rows, rfl, nofun, source, selector, table, rfl, hselector, hsource,
                  htable⟩
              · cases h
        · cases h
      · cases h

theorem parseSelector_eq_ok {selector : Text} {mark mask : BitVec 32}
    (h : parseSelector selector = .ok (mark, mask)) :
    parseRouteU32 (splitOnceOr '/' selector (lit "0xffffffff")).1 = some mark ∧
      parseRouteU32 (splitOnceOr '/' selector (lit "0xffffffff")).2 = some mask := by
  simp only [parseSelector, bind_ok, exists_unit, orError_eq_ok] at h
  obtain ⟨mark', hmark, mask', hmask, -, h⟩ := h
  obtain ⟨rfl, rfl⟩ := Prod.mk.inj (Except.ok.inj h)
  exact ⟨hmark, hmask⟩

theorem Skipped.not_selects {body : List Text} (h : authority.Skipped body)
    (hshown : RuleShown body rule) {packet : Packet}
    (hmark : packet.mark &&& authority.mask = authority.mark) : ¬rule.selects packet := by
  obtain ⟨source, selector, table, mark, mask, hbody, hselector, hdiffer⟩ := h
  obtain ⟨hselects, -⟩ := hshown.marked source selector table hbody
  obtain ⟨hmarkText, hmaskText⟩ := parseSelector_eq_ok hselector
  rw [hselects]
  rintro ⟨-, mark', mask', hmark', hmask', hmatch⟩
  cases hmarkText.symm.trans hmark'
  cases hmaskText.symm.trans hmask'
  exact not_matches_of_differs hmark hdiffer hmatch

theorem Selected.selects {body : List Text} (h : authority.Selected body)
    (hshown : RuleShown body rule) {packet : Packet} (hsource : packet.source = authority.source)
    (hmark : packet.mark &&& authority.mask = authority.mark) :
    rule.selects packet ∧ rule.table = authority.table := by
  obtain ⟨source, selector, table, hbody, hselector, hmatches, htable⟩ := h
  obtain ⟨hselects, hnames⟩ := hshown.marked source selector table hbody
  obtain ⟨hmarkText, hmaskText⟩ := parseSelector_eq_ok hselector
  refine ⟨(hselects packet).2 ⟨?_, _, _, hmarkText, hmaskText, hmark⟩, ?_⟩
  · rw [hsource]
    exact selectsSource_of_matches hmatches
  · exact hnames.1 _ htable

variable {device : Text}

theorem attestRoute_eq_ok {value : JsonValue} {default : Bool} {route : PolicyRouting.Route Packet Text}
    (h : authority.attestRoute device value = .ok default) (hshown : RouteShown value route) :
    route.device = device ∧ (default = true → ∀ packet, route.covers packet) := by
  simp only [attestRoute, bind_ok, exists_unit, orError_eq_ok, check_ok, Bool.not_eq_true',
    Bool.or_eq_false_iff, bne_eq_false_iff_eq] at h
  obtain ⟨entries, hentries, -, ⟨-, hdevice⟩, -, -, -, destination, hdestination, h⟩ := h
  refine ⟨hshown.device entries device hentries hdevice, fun hdefault => ?_⟩
  subst hdefault
  unfold attestDestination at h
  split at h
  · rename_i hdefault
    exact (hshown.default entries destination hentries hdestination hdefault).2
  · dsimp only at h
    split at h <;> cases h

variable {table : List (PolicyRouting.Route Packet Text)}

theorem attestRoutes_eq_ok {values : List JsonValue} {default : Bool}
    (h : authority.attestRoutes device values = .ok default)
    (hshown : List.Forall₂ RouteShown values table) :
    (∀ route ∈ table, route.device = device) ∧
      (default = true → ∃ route ∈ table, ∀ packet, route.covers packet) := by
  induction hshown generalizing default with
  | nil =>
    cases h
    exact ⟨nofun, nofun⟩
  | cons hroute _ ih =>
    simp only [attestRoutes, bind_ok] at h
    obtain ⟨first, hfirst, more, hmore, h⟩ := h
    cases h
    obtain ⟨hdevice, hcovers⟩ := attestRoute_eq_ok hfirst hroute
    obtain ⟨hdevices, hdefault⟩ := ih hmore
    refine ⟨fun r hr => ?_, fun hor => ?_⟩
    · rcases mem_cons.1 hr with rfl | hr
      · exact hdevice
      · exact hdevices r hr
    · rcases Bool.or_eq_true_iff.1 hor with hthis | hlater
      · exact ⟨_, mem_cons_self, hcovers hthis⟩
      · obtain ⟨r, hr, hall⟩ := hdefault hlater
        exact ⟨r, mem_cons_of_mem _ hr, hall⟩

/-- **What an accepted table shows**: every route leaves by the device, and one covers
every packet. -/
theorem attestTableRoutes_eq_ok {fromSlice : List UInt8 → Option JsonValue} {input : List UInt8}
    (h : authority.attestTableRoutes device fromSlice input = .ok ())
    (hlists : ListsRoutes fromSlice input table) :
    (∀ route ∈ table, route.device = device) ∧ ∃ route ∈ table, ∀ packet, route.covers packet := by
  obtain ⟨value, routes, hvalue, hroutes, hshown⟩ := hlists
  simp only [attestTableRoutes, bind_ok, exists_unit, orError_eq_ok, check_ok] at h
  obtain ⟨-, value', hvalue', routes', hroutes', -, default, hattest, hdefault⟩ := h
  cases hvalue.symm.trans hvalue'
  cases hroutes.symm.trans hroutes'
  obtain ⟨hdevices, hcovers⟩ := attestRoutes_eq_ok hattest hshown
  exact ⟨hdevices, hcovers hdefault⟩

/-- **What an accepted rule listing shows**: distinct priorities; the rule of the authority
at the priority returned; and before it the local rule and rules that cannot match. -/
theorem attestRules_eq_ok {rules : Text} {p : ℕ} (h : authority.attestRules rules = .ok p)
    (hshows : Shows rules kernel) :
    (kernel.map PolicyRouting.Rule.priority).Nodup ∧
      (∃ rule ∈ kernel, rule.priority = p ∧ ∃ body, RuleShown body rule ∧ authority.Selected body) ∧
      ∀ rule ∈ kernel, rule.priority < p →
        (rule.priority = 0 ∧ rule.table = 255) ∨
          ∃ body, RuleShown body rule ∧ authority.Skipped body := by
  simp only [attestRules, bind_ok, exists_unit, check_ok, Bool.not_eq_true'] at h
  obtain ⟨-, rows, hrows, hambiguous, hlocal, hattest⟩ := h
  have hshown : List.Forall₂ RowShown rows kernel := rowsShown (parseRows_eq_ok hrows) hshows
  have hperm : List.Perm (sortRows rows) rows := perm_insertionSort _ _
  have hsorted : (sortRows rows).Pairwise fun a b => a.1 ≤ b.1 := pairwise_insertionSort _ _
  have hstrict := strict_of_not_ambiguous hsorted hambiguous
  have hdistinct : (rows.map fst).Nodup := by
    refine (hperm.map fst).nodup_iff.1 ?_
    exact pairwise_map.2 (hstrict.imp fun hlt => Nat.ne_of_lt hlt)
  refine ⟨RowsShown.priorities hshown ▸ hdistinct, ?_⟩
  cases hsort : sortRows rows with
  | nil =>
    rw [hsort] at hlocal
    cases hlocal
  | cons first tail =>
    rw [hsort] at hlocal hattest hstrict
    obtain ⟨before, body, after, htail, hbefore, hselected⟩ := attestRows_eq_ok hattest
    rw [tail_cons] at htail
    subst htail
    constructor
    · have hmem : (p, body) ∈ rows := hperm.mem_iff.1 (by rw [hsort]; simp)
      obtain ⟨rule, hrule, hpriority, hbody⟩ := RowsShown.exists_rule hshown hmem
      exact ⟨rule, hrule, hpriority, body, hbody, hselected⟩
    · intro rule hrule hlt
      obtain ⟨row, hrow, hpriority, hbody⟩ := RowsShown.exists_row hshown hrule
      rw [hpriority] at hlt
      have hmem : row ∈ first :: (before ++ (p, body) :: after) := hsort ▸ hperm.mem_iff.2 hrow
      rcases mem_cons.1 hmem with rfl | hmem
      · exact .inl (local_of_isLocalRule hlocal ⟨hpriority, hbody⟩)
      · rcases mem_append.1 hmem with hmem | hmem
        · exact .inr ⟨row.2, hbody, hbefore row hmem⟩
        · -- a row from the selected one on has no smaller priority
          have hpairwise := (pairwise_append.1 (pairwise_cons.1 hstrict).2).2.1
          rcases mem_cons.1 hmem with rfl | hmem
          · exact absurd hlt (Nat.lt_irrefl p)
          · exact absurd ((pairwise_cons.1 hpairwise).1 row hmem) (Nat.lt_asymm hlt)

/-- **The attestation is sound.**  When the rules and the table of an authority are accepted, every
packet with its source and mark that the local table does not resolve is sent by the rule at the
priority returned, over the table of the authority and by the attested device, and no other rule
before it but the local one selects it. -/
theorem explicit_route_sound {mode source table mark mask : Text}
    (_hauthority : fromFields mode source table mark mask = .ok (some authority))
    {rules : Text} {p : ℕ} (hrules : authority.attestRules rules = .ok p)
    {fromSlice : List UInt8 → Option JsonValue} {input : List UInt8}
    (htable : authority.attestTableRoutes device fromSlice input = .ok ())
    {kernel : List (PolicyRouting.Rule Packet)} (hshows : Shows rules kernel)
    {tables : ℕ → List (PolicyRouting.Route Packet Text)}
    (hlists : ListsRoutes fromSlice input (tables authority.table)) {packet : Packet}
    (hsource : packet.source = authority.source)
    (hmark : packet.mark &&& authority.mask = authority.mark)
    (hlocal : ∀ route ∈ tables 255, ¬route.covers packet) :
    (∃ rule route, PolicyRouting.Routed kernel tables packet rule route) ∧
    (∀ rule route, PolicyRouting.Routed kernel tables packet rule route →
      rule.priority = p ∧ rule.table = authority.table ∧ route.device = device) ∧
    (∀ rule ∈ kernel, rule.priority < p → rule.selects packet →
      rule.priority = 0 ∧ rule.table = 255) := by
  obtain ⟨hdistinct, ⟨rule, hrule, hpriority, body, hbody, hselected⟩, hbefore⟩ :=
    attestRules_eq_ok hrules hshows
  obtain ⟨hdevices, default, hdefault, hcovers⟩ := attestTableRoutes_eq_ok htable hlists
  obtain ⟨hselects, htableEq⟩ := hselected.selects hbody hsource hmark
  rw [← htableEq] at hdevices hdefault
  have hearlier : ∀ r ∈ kernel, r.priority < p → r.selects packet →
      r.priority = 0 ∧ r.table = 255 := by
    intro r hr hlt hsel
    rcases hbefore r hr hlt with hlocalRule | ⟨body', hbody', hskipped⟩
    · exact hlocalRule
    · exact absurd hsel (hskipped.not_selects hbody' hmark)
  have hfirst : ∀ r ∈ kernel, r.priority < rule.priority → r.selects packet →
      ∀ other ∈ tables r.table, ¬other.covers packet := by
    intro r hr hlt hsel other hother
    obtain ⟨-, hlocalTable⟩ := hearlier r hr (hpriority ▸ hlt) hsel
    exact hlocal other (hlocalTable ▸ hother)
  have hiff := PolicyRouting.routed_iff hdistinct hrule hselects ⟨default, hdefault, hcovers packet⟩
    hfirst
  refine ⟨?_, fun rule' route hrouted => ?_, hearlier⟩
  · obtain ⟨best, hbest⟩ := PolicyRouting.exists_chosen hdefault (hcovers packet)
    exact ⟨rule, best, (hiff rule best).2 ⟨rfl, hbest⟩⟩
  · obtain ⟨rfl, hchosen⟩ := (hiff rule' route).1 hrouted
    exact ⟨hpriority, htableEq, hdevices route hchosen.mem⟩

/-- An authority for the mark `0x100` on the mask `0x3f00`. -/
def sampleAuthority : ExplicitRouteAuthority := ⟨⟨192, 0, 2, 2⟩, 101, 0x100, 0x3f00⟩

/-- A listing with a rule whose table has a name of its own. -/
def sampleRules : Text :=
  lit ("0: from all lookup local\n90: from all fwmark 0x200/0x3f00 lookup vpn\n" ++
    "100: from all fwmark 0x100/0x3f00 lookup 101\n")

def sampleKernel : List (PolicyRouting.Rule Packet) :=
  (ruleLines sampleRules).map (shownRule fun _ => 7)

def sampleTable : JsonValue :=
  .array [.object [(lit "dst", .string (lit "default")), (lit "dev", .string (lit "eth1"))]]

def sampleInput : List UInt8 := utf8 (lit "[\x7b\"dst\":\"default\",\"dev\":\"eth1\"\x7d]")

/-- `serde_json::from_slice`, on that text. -/
def sampleFromSlice (input : List UInt8) : Option JsonValue :=
  if input = sampleInput then some sampleTable else none

def sampleTables (table : ℕ) : List (PolicyRouting.Route Packet Text) :=
  if table = 101 then [⟨fun _ => True, 0, lit "eth1"⟩] else []

def samplePacket : Packet := ⟨⟨192, 0, 2, 2⟩, ⟨198, 51, 100, 7⟩, 0x10100⟩

theorem sampleTable_listed : ListsRoutes sampleFromSlice sampleInput (sampleTables 101) := by
  refine ⟨sampleTable, _, if_pos rfl, rfl, .cons ⟨?_, ?_, ?_⟩ .nil⟩
  · intro entries device hentries hdevice
    cases hentries
    have heth : (entry [(lit "dst", .string (lit "default")), (lit "dev", .string (lit "eth1"))]
        "dev").bind JsonValue.asStr = some (lit "eth1") := by decide +kernel
    exact Option.some.inj (heth.symm.trans hdevice)
  · exact fun _ _ _ _ _ => ⟨rfl, fun _ => trivial⟩
  · intro entries destination address length hentries hdestination hstarts
    cases hentries
    have hdst : (entry [(lit "dst", .string (lit "default")), (lit "dev", .string (lit "eth1"))]
        "dst").bind JsonValue.asStr = some (lit "default") := by decide +kernel
    cases hdst.symm.trans hdestination
    have hnone : parseIpv4 (splitOnceOr '/' (lit "default") (lit "32")).1 = none := by decide +kernel
    exact absurd (hnone.symm.trans hstarts.1) (by simp)

/-- The packet is sent by the rule at 100 and leaves by `eth1`. -/
theorem samplePacket_routed :
    (∃ rule route, PolicyRouting.Routed sampleKernel sampleTables samplePacket rule route) ∧
      ∀ rule route, PolicyRouting.Routed sampleKernel sampleTables samplePacket rule route →
        rule.priority = 100 ∧ rule.table = 101 ∧ route.device = lit "eth1" := by
  have hfields : fromFields (lit "explicit") (lit "192.0.2.2") (lit "101") (lit "0x100")
      (lit "0x3f00") = .ok (some sampleAuthority) := by decide +kernel
  have hrules : sampleAuthority.attestRules sampleRules = .ok 100 := by decide +kernel
  have htable :
    sampleAuthority.attestTableRoutes (lit "eth1") sampleFromSlice sampleInput = .ok () := by
    decide +kernel
  have hsource : samplePacket.source = sampleAuthority.source := rfl
  obtain ⟨hrouted, hroute, -⟩ := explicit_route_sound hfields hrules htable (shows_shownRule _ _)
    sampleTable_listed hsource (by decide) (by simp [sampleTables])
  exact ⟨hrouted, hroute⟩

theorem local_rule_selects : sampleAuthority.attestRules sampleRules = .ok 100 ∧
    sampleAuthority.attestTableRoutes (lit "eth1") sampleFromSlice sampleInput = .ok () ∧
    Shows sampleRules sampleKernel ∧ samplePacket.source = sampleAuthority.source ∧
    samplePacket.mark &&& sampleAuthority.mask = sampleAuthority.mark ∧
    ∃ rule ∈ sampleKernel, rule.priority < 100 ∧ rule.selects samplePacket := by
  have hline : lit "0: from all lookup local" ∈ ruleLines sampleRules := by decide +kernel
  have hsplit : splitOnce ':' (lit "0: from all lookup local")
      = some (lit "0", lit " from all lookup local") := by decide +kernel
  have hwords : splitAsciiWhitespace (lit " from all lookup local")
      = [lit "from", lit "all", lit "lookup", lit "local"] := by decide +kernel
  obtain ⟨-, hshown⟩ := lineShown_shownRule (fun _ => 7) _ _ _ hsplit
  exact ⟨by decide +kernel, by decide +kernel, shows_shownRule _ _, rfl, by decide,
    _, mem_map_of_mem hline, by decide +kernel, (hshown.plain _ hwords).1 _⟩

end ExplicitRouteAuthority

end CakeAutorate.Routing
