/-
# What a valid request guarantees

The facts about a request that `validate` accepts and its record relies on: every
text is short and has no forbidden byte, an optional text is not empty, and the
optional parts of the route, the traffic and the target imply each other as the
schemas have it.
-/

import CakeAutorate.Protocol.Codec

namespace CakeAutorate.Protocol

open Wire Option
open Autotune (AutotuneProfile AccessMedium AccessEvidenceSource CapacityLearningPolicy)

/-- A text of at most `bound` bytes that a field can carry. -/
structure Short (bound : ℕ) (value : Text) : Prop where
  size : byteLength value ≤ bound
  writable : Writable value

instance (bound : ℕ) (value : Text) : Decidable (Short bound value) :=
  decidable_of_iff (byteLength value ≤ bound ∧ '\x00' ∉ value ∧ '\r' ∉ value)
    ⟨fun h => ⟨h.1, h.2⟩, fun h => ⟨h.1, h.2⟩⟩

variable {value : Text}

theorem Short.mono {m n : ℕ} (h : Short m value) (hmn : m ≤ n) : Short n value :=
  ⟨h.size.trans hmn, h.writable⟩

theorem short_nil (bound : ℕ) : Short bound [] := ⟨Nat.zero_le _, by simp, by simp⟩

/-- An ASCII character that is no control. -/
def printable (c : Char) : Bool := 32 ≤ c.toNat && c.toNat < 127

theorem writable_of_printable (h : ∀ c ∈ value, printable c = true) : Writable value := by
  constructor
  · intro hmem
    exact absurd (h _ hmem) (by decide)
  · intro hmem
    exact absurd (h _ hmem) (by decide)

theorem short_of_printable {bound : ℕ} (h : ∀ c ∈ value, printable c = true)
    (hlen : value.length ≤ bound) : Short bound value := by
  have hsize : byteLength value = value.length := by
    refine byteLength_ascii fun c hc => ?_
    have := h c hc
    simp only [printable, Bool.and_eq_true, decide_eq_true_eq] at this
    omega
  exact ⟨by omega, writable_of_printable h⟩

theorem printable_of_alphanumeric {c : Char} (h : isAsciiAlphanumeric c = true) :
    printable c = true := by
  simp only [isAsciiAlphanumeric, Bool.or_eq_true, Bool.and_eq_true, decide_eq_true_eq,
    Char.le_def, UInt32.le_iff_toNat_le] at h
  simp only [printable, Bool.and_eq_true, decide_eq_true_eq, Char.toNat]
  have h0 : '0'.val.toNat = 48 := rfl
  have h9 : '9'.val.toNat = 57 := rfl
  have hA : 'A'.val.toNat = 65 := rfl
  have hZ : 'Z'.val.toNat = 90 := rfl
  have ha : 'a'.val.toNat = 97 := rfl
  have hz : 'z'.val.toNat = 122 := rfl
  omega

theorem alphanumeric_of_digit {c : Char} (h : c.isDigit = true) : isAsciiAlphanumeric c = true := by
  simp only [Char.isDigit, Bool.and_eq_true, decide_eq_true_eq] at h
  simp only [isAsciiAlphanumeric, Bool.or_eq_true, Bool.and_eq_true, decide_eq_true_eq, Char.le_def]
  exact .inl (.inl h)

theorem lowerHex_short {n : ℕ} (h : lowerHex n value = true) : Short n value := by
  simp only [lowerHex, Bool.and_eq_true, beq_iff_eq, List.all_eq_true] at h
  refine ⟨h.1.le, writable_of_printable fun c hc => printable_of_alphanumeric ?_⟩
  have := h.2 c hc
  simp only [isAsciiAlphanumeric, Bool.or_eq_true, Bool.and_eq_true, decide_eq_true_eq,
    Char.le_def, UInt32.le_iff_toNat_le] at this ⊢
  have hf : 'f'.val.toNat = 102 := rfl
  have hz : 'z'.val.toNat = 122 := rfl
  omega

theorem safeIdentifier_short {minimum maximum : ℕ} {punctuation : String}
    (hp : (lit punctuation).all printable = true)
    (h : safeIdentifier minimum maximum punctuation value = true) : Short maximum value := by
  simp only [safeIdentifier, Bool.and_eq_true, decide_eq_true_eq, List.all_eq_true, Bool.or_eq_true,
    List.contains_iff_mem] at h
  refine ⟨h.1.2, writable_of_printable fun c hc => ?_⟩
  rcases h.2 c hc with halpha | hpunct
  · exact printable_of_alphanumeric halpha
  · exact List.all_eq_true.1 hp c hpunct

theorem safeIdentifier_ne_nil {maximum : ℕ} {punctuation : String}
    (h : safeIdentifier 1 maximum punctuation value = true) : value ≠ [] := by
  rintro rfl
  simp [safeIdentifier] at h

theorem uciSection_short {name : Text} (h : validateUciSection name = .ok ()) :
    Short 64 name ∧ name ≠ [] := by
  simp only [validateUciSection, check_ok, Bool.not_eq_true', Bool.or_eq_false_iff,
    decide_eq_false_iff_not, not_lt, List.any_eq_false] at h
  obtain ⟨⟨hempty, hlen⟩, hall⟩ := h
  refine ⟨⟨hlen, writable_of_printable fun c hc => ?_⟩, by simpa using hempty⟩
  have hc := hall c hc
  simp only [Bool.and_eq_true, Bool.not_eq_true', bne_iff_ne, ne_eq, not_and, not_not] at hc
  cases halpha : isAsciiAlphanumeric c with
  | true => exact printable_of_alphanumeric halpha
  | false =>
    rw [hc halpha]
    decide

/-- A type whose values are written as short texts that are not empty, and read back. -/
structure TextCodec {α : Type} (text : α → Text) (parse : Text → Option α) (bound : ℕ) : Prop where
  parse_text : ∀ a, parse (text a) = some a
  short : ∀ a, Short bound (text a)
  ne_nil : ∀ a, text a ≠ []

namespace TextCodec

variable {α : Type} {text : α → Text} {parse : Text → Option α} {bound : ℕ}

theorem orError_eq (c : TextCodec text parse bound) (a : α) (error : String) :
    orError (parse (text a)) error = .ok a := by
  rw [c.parse_text]
  rfl

theorem parseOptionalEnum_eq (c : TextCodec text parse bound) (a : Option α) (name : String) :
    parseOptionalEnum (optionText text a) parse name = .ok a := by
  cases a with
  | none => rfl
  | some a =>
    have hne : (text a).isEmpty = false := by simpa using c.ne_nil a
    simp only [parseOptionalEnum, optionText, map_some, getD_some, hne,
      Bool.false_eq_true, if_false, c.orError_eq]
    rfl

theorem optionalParsed_eq (c : TextCodec text parse bound) (a : Option α) (name : String) :
    optionalParsed parse name (optionText text a) = .ok a := by
  cases a with
  | none => rfl
  | some a =>
    have hne : (text a).isEmpty = false := by simpa using c.ne_nil a
    simp only [optionalParsed, optionText, map_some, getD_some, hne,
      Bool.false_eq_true, if_false, c.orError_eq]
    rfl

theorem optionText_short (c : TextCodec text parse bound) (a : Option α) :
    Short bound (optionText text a) := by
  cases a with
  | none => exact short_nil bound
  | some a => exact c.short a

end TextCodec

theorem display_short {n k : ℕ} (hk : 0 < k) (hn : n < 10 ^ k) : Short k (display n) :=
  short_of_printable
    (fun _ hc => printable_of_alphanumeric (alphanumeric_of_digit (display_isDigit hc)))
    (length_display_le hk hn)

theorem codec_uint8 : TextCodec (fun n : UInt8 => display n.toNat) parseUInt8 3 where
  parse_text n := by simp [parseUInt8, parseUInt_display n.toNat_lt]
  short n := display_short (by decide) (n.toNat_lt.trans (by decide))
  ne_nil n := display_ne_nil _

theorem codec_uint32 : TextCodec (fun n : UInt32 => display n.toNat) parseUInt32 10 where
  parse_text n := by simp [parseUInt32, parseUInt_display n.toNat_lt]
  short n := display_short (by decide) (n.toNat_lt.trans (by decide))
  ne_nil n := display_ne_nil _

theorem codec_uint64 : TextCodec (fun n : UInt64 => display n.toNat) parseUInt64 20 where
  parse_text n := by simp [parseUInt64, parseUInt_display n.toNat_lt]
  short n := display_short (by decide) (n.toNat_lt.trans (by decide))
  ne_nil n := display_ne_nil _

theorem AddressText.codec (net : AddressText) : TextCodec net.display net.parse 39 where
  parse_text := net.parse_display
  short ip := by
    refine short_of_printable (fun c hc => ?_) (net.display_length ip)
    rcases net.display_chars ip c hc with h | rfl | rfl
    · exact printable_of_alphanumeric h
    · decide
    · decide
  ne_nil := net.display_ne_nil

theorem AddressText.codecV4 (net : AddressText) : TextCodec net.displayV4 net.parseV4 15 where
  parse_text := net.parseV4_displayV4
  short ip := by
    refine short_of_printable (fun c hc => ?_) (net.displayV4_length ip)
    rcases net.displayV4_chars ip c hc with h | rfl
    · exact printable_of_alphanumeric h
    · decide
  ne_nil := net.displayV4_ne_nil

/-- The codec of an enumeration, each value by a short word. -/
abbrev WordCodec {α : Type} (asStr : α → String) (parse : Text → Option α) : Prop :=
  TextCodec (fun a => lit (asStr a)) parse 20

theorem codec_words {α : Type} {asStr : α → String} {parse : Text → Option α}
    (h : ∀ a, parse (lit (asStr a)) = some a ∧ Short 20 (lit (asStr a)) ∧ lit (asStr a) ≠ []) :
    WordCodec asStr parse :=
  ⟨fun a => (h a).1, fun a => (h a).2.1, fun a => (h a).2.2⟩

theorem OperationKind.codec : WordCodec asStr parse := codec_words (by rintro ⟨⟩ <;> decide)

theorem OperationOrigin.codec : WordCodec asStr parse := codec_words (by rintro ⟨⟩ <;> decide)

theorem OperationTargetState.codec : WordCodec asStr parse := codec_words (by rintro ⟨⟩ <;> decide)

theorem OperationRouteMode.codec : WordCodec asStr parse := codec_words (by rintro ⟨⟩ <;> decide)

theorem CalibrationStrategy.codec : WordCodec asStr parse := codec_words (by rintro ⟨⟩ <;> decide)

theorem SpeedtestDirection.codec : WordCodec asStr parse := codec_words (by rintro ⟨⟩ <;> decide)

theorem SpeedtestTopology.codec : WordCodec asStr parse := codec_words (by rintro ⟨⟩ <;> decide)

theorem AutotuneProfile.codec : WordCodec AutotuneProfile.asStr AutotuneProfile.parse := codec_words (by rintro ⟨⟩ <;> decide)

theorem AccessMedium.codec : WordCodec AccessMedium.asStr AccessMedium.parse :=
  codec_words (by rintro ⟨⟩ <;> exact ⟨rfl, by decide⟩)

theorem AccessEvidenceSource.codec : WordCodec AccessEvidenceSource.asStr AccessEvidenceSource.parse :=
  codec_words (by rintro ⟨⟩ <;> exact ⟨rfl, by decide⟩)

theorem CapacityLearningPolicy.codec : WordCodec CapacityLearningPolicy.asStr CapacityLearningPolicy.parse :=
  codec_words (by rintro ⟨⟩ <;> decide)

theorem AutotuneCapturePolicyId.codec : WordCodec asStr parse :=
  codec_words (by rintro ⟨⟩ <;> exact ⟨rfl, by decide⟩)

theorem OperationIdentity.validate_eq_ok {i : OperationIdentity} (h : i.validate = .ok ()) :
    Short 32 i.jobId ∧ Short 64 i.jobToken ∧ Short 64 i.instance_ ∧ Short 64 i.targetInterface ∧
      Short 64 i.routeFingerprint ∧ Short 64 i.configFingerprint ∧ Short 64 i.sqmFingerprint := by
  simp only [OperationIdentity.validate, andThen_eq_ok, requireLowerHex, requireSafeIdentifier,
    check_ok] at h
  obtain ⟨hjob, htoken, hinstance, htarget, hroute, hconfig, hsqm⟩ := h
  exact ⟨lowerHex_short hjob, lowerHex_short htoken, safeIdentifier_short (by decide) hinstance,
    safeIdentifier_short (by decide) htarget, lowerHex_short hroute, lowerHex_short hconfig,
    lowerHex_short hsqm⟩

namespace OperationRouteIdentity

variable {net : AddressText} {r : OperationRouteIdentity}

theorem validate_eq_ok : r.validate net = .ok () ↔
    r.validateDns net = .ok () ∧ safeIdentifier 1 64 "._:@-" r.l3Device = true ∧
      (!r.deviceIfindex.any fun index => index == 0 || r.fwmarkMask.isNone) = true ∧
      r.validateMask = .ok () ∧ r.validateMode = .ok () := by
  simp [validate, andThen_eq_ok, requireSafeIdentifier, check_ok]

theorem link_of_dns (hdns : r.validateDns net = .ok ()) (hmode : r.validateMode = .ok ())
    (h : r.dnsServer.isSome = true) : r.deviceIfindex.isSome = true := by
  obtain ⟨server, hserver⟩ := isSome_iff_exists.1 h
  have hne : (net.displayV4 server).isEmpty = false := by simpa using net.displayV4_ne_nil server
  have hexplicit : r.mode = .explicit := by
    simp only [validateDns, hserver, explicitDnsServer, hne, Bool.false_eq_true, if_false] at hdns
    cases hmode' : r.mode with
    | explicit => rfl
    | main => rw [hmode'] at hdns; simp [OperationRouteMode.asStr, lit, bind, Except.bind] at hdns
    | mwan3 => rw [hmode'] at hdns; simp [OperationRouteMode.asStr, lit, bind, Except.bind] at hdns
  simp only [validateMode, hexplicit] at hmode
  cases hmember : r.mwan3Member with
  | some member => simp [hmember, throw, throwThe, MonadExceptOf.throw] at hmode
  | none =>
    simp only [hmember, check_ok, Bool.not_eq_true', Bool.or_eq_false_iff] at hmode
    simpa using hmode.1.1.2

theorem mask_of_link
    (h : (!r.deviceIfindex.any fun index => index == 0 || r.fwmarkMask.isNone) = true)
    (hlink : r.deviceIfindex.isSome = true) : r.fwmarkMask.isSome = true := by
  obtain ⟨index, hindex⟩ := isSome_iff_exists.1 hlink
  simp only [hindex, any_some, Bool.not_eq_true', Bool.or_eq_false_iff] at h
  simpa using h.2

theorem member_short (hmode : r.validateMode = .ok ()) {member : Text}
    (h : r.mwan3Member = some member) : Short 64 member ∧ member ≠ [] := by
  cases hm : r.mode with
  | explicit => simp [validateMode, hm, h, throw, throwThe, MonadExceptOf.throw] at hmode
  | main => simp [validateMode, hm, h, throw, throwThe, MonadExceptOf.throw] at hmode
  | mwan3 =>
    simp only [validateMode, hm, h, requireSafeIdentifier, check_ok] at hmode
    exact ⟨safeIdentifier_short (by decide) hmode, safeIdentifier_ne_nil hmode⟩

end OperationRouteIdentity

namespace OperationRequest

variable {net : AddressText} {r : OperationRequest}

theorem validate_eq_ok : r.validate net = .ok () ↔
    r.validateRetries = .ok () ∧ r.identity.validate = .ok () ∧ r.route.validate net = .ok () ∧
      safeIdentifier 1 32 "_-" r.backend = true ∧ r.validateTraffic = .ok () ∧
      r.validateTarget = .ok () ∧ r.validateOperation = .ok () ∧
      validateCap "download service cap" r.serviceDlCapKbps = .ok () ∧
      validateCap "upload service cap" r.serviceUlCapKbps = .ok () := by
  simp [validate, andThen_eq_ok, requireSafeIdentifier, check_ok]

theorem retries_le (h : r.validateRetries = .ok ()) {retries : UInt8}
    (hr : r.serverFailureRetries = some retries) : retries ≤ 10 := by
  simp only [validateRetries, hr, andThen_eq_ok, check_ok, decide_eq_true_eq] at h
  exact h.1

theorem explicit_of_plan (h : r.validateTraffic = .ok ()) (hp : r.trafficPlan.isSome = true) :
    r.trafficPolicyExplicit = true := by
  obtain ⟨plan, hplan⟩ := isSome_iff_exists.1 hp
  simp only [validateTraffic, validatePlan, hplan, andThen_eq_ok, check_ok, Bool.not_eq_true',
    Bool.or_eq_false_iff] at h
  simpa using h.2.2.2.1.2.1.1

theorem explicit_of_unlimited (h : r.validateTraffic = .ok ()) (hb : r.trafficBudget = .unlimited) :
    r.trafficPolicyExplicit = true := by
  simp only [validateTraffic, andThen_eq_ok, check_ok] at h
  have := h.2.2.2.2.1
  simp only [hb, beq_self_eq_true, Bool.true_and, Bool.not_eq_true', Bool.or_eq_false_iff] at this
  simpa using this.1

theorem target_of_absent (h : r.validateTarget = .ok ()) (ht : r.targetState = .absentBootstrap) :
    (∃ planned, r.managedSqmSection = some planned ∧ validateUciSection planned = .ok ()) ∧
      ∃ policy, r.capturePolicy = some policy := by
  simp only [validateTarget, ht, beq_self_eq_true, if_true, andThen_eq_ok, orError_bind_ok] at h
  obtain ⟨-, -, -, planned, hplanned, huci, policy, hpolicy, -⟩ := h
  exact ⟨⟨planned, hplanned, huci⟩, policy, hpolicy⟩

theorem capture_iff (h : r.validateTarget = .ok ()) :
    r.capturePolicy.isSome = true ↔ r.targetState = .absentBootstrap := by
  cases ht : r.targetState with
  | existingManaged =>
    have hnone : r.capturePolicy.isNone = true := by
      simpa [validateTarget, ht, check_ok] using h
    simpa using hnone
  | absentBootstrap =>
    obtain ⟨-, policy, hpolicy⟩ := target_of_absent h ht
    simp [hpolicy]

theorem section_short (htarget : r.validateTarget = .ok ()) (h : r.validateOperation = .ok ())
    {name : Text} (hname : r.managedSqmSection = some name) : Short 64 name ∧ name ≠ [] := by
  cases hop : r.identity.operation with
  | fullAutotune =>
    simp only [validateOperation, hop, validateFullAutotune, andThen_eq_ok, orError_bind_ok,
      hname, requireSafeIdentifier, check_ok, some.injEq] at h
    obtain ⟨-, -, -, -, -, -, _, rfl, hsafe⟩ := h
    exact ⟨safeIdentifier_short (by decide) hsafe, safeIdentifier_ne_nil hsafe⟩
  | automaticRating =>
    simp [validateOperation, hop, validateGenerated, andThen_eq_ok, hname, check_ok] at h
  | guidedRating =>
    simp [validateOperation, hop, validateGuided, andThen_eq_ok, hname, check_ok] at h
  | speedtest =>
    cases ht : r.targetState with
    | existingManaged =>
      simp [validateOperation, hop, validateGenerated, andThen_eq_ok, hname, ht, check_ok] at h
    | absentBootstrap =>
      obtain ⟨⟨planned, hplanned, huci⟩, -⟩ := target_of_absent htarget ht
      obtain rfl : name = planned := some.inj (hname.symm.trans hplanned)
      exact uciSection_short huci

/-- What the record of a valid request relies on. -/
structure Facts (r : OperationRequest) : Prop where
  jobId : Short 32 r.identity.jobId
  jobToken : Short 64 r.identity.jobToken
  instance_ : Short 64 r.identity.instance_
  targetInterface : Short 64 r.identity.targetInterface
  routeFingerprint : Short 64 r.identity.routeFingerprint
  configFingerprint : Short 64 r.identity.configFingerprint
  sqmFingerprint : Short 64 r.identity.sqmFingerprint
  backend : Short 32 r.backend
  l3Device : Short 64 r.route.l3Device
  member : ∀ name, r.route.mwan3Member = some name → Short 64 name ∧ name ≠ []
  section_ : ∀ name, r.managedSqmSection = some name → Short 64 name ∧ name ≠ []
  link_of_dns : r.route.dnsServer.isSome = true → r.route.deviceIfindex.isSome = true
  mask_of_link : r.route.deviceIfindex.isSome = true → r.route.fwmarkMask.isSome = true
  explicit_of_plan : r.trafficPlan.isSome = true → r.trafficPolicyExplicit = true
  explicit_of_unlimited : r.trafficBudget = .unlimited → r.trafficPolicyExplicit = true
  capture : r.capturePolicy.isSome = true ↔ r.targetState = .absentBootstrap
  retries : ∀ n, r.serverFailureRetries = some n → n ≤ 10

/-- **A valid request has what its record relies on.** -/
theorem facts (h : r.validate net = .ok ()) : r.Facts := by
  obtain ⟨hretries, hidentity, hroute, hbackend, htraffic, htarget, hoperation, -⟩ :=
    validate_eq_ok.1 h
  obtain ⟨hjob, htoken, hinstance, hinterface, hfroute, hfconfig, hfsqm⟩ :=
    OperationIdentity.validate_eq_ok hidentity
  obtain ⟨hdns, hdevice, hlink, -, hmode⟩ := OperationRouteIdentity.validate_eq_ok.1 hroute
  constructor
  · exact hjob
  · exact htoken
  · exact hinstance
  · exact hinterface
  · exact hfroute
  · exact hfconfig
  · exact hfsqm
  · exact safeIdentifier_short (by decide) hbackend
  · exact safeIdentifier_short (by decide) hdevice
  · exact fun _ => OperationRouteIdentity.member_short hmode
  · exact fun _ => section_short htarget hoperation
  · exact OperationRouteIdentity.link_of_dns hdns hmode
  · exact OperationRouteIdentity.mask_of_link hlink
  · exact explicit_of_plan htraffic
  · exact explicit_of_unlimited htraffic
  · exact capture_iff htarget
  · exact fun _ => retries_le hretries

end OperationRequest

end CakeAutorate.Protocol
