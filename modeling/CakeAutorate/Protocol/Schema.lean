/-
# Schemas

Which schemas can represent a request, and what `encode_for_schema` writes for
them.  The schema says of each optional part whether the request carries it, so a
request has one schema only, but for a managed request under the default policy:
its target state may be written (5, 24) or left out (4, 23).
-/

import CakeAutorate.Protocol.Valid

namespace CakeAutorate.Protocol

open Wire Fits AutotuneCapturePolicyId

/-- The schema without its retries. -/
def legacySchema (n : ℕ) : ℕ := if n > 22 then n - retrySchemaOffset else n

theorem legacySchema_range {n : ℕ} (h : 4 ≤ n ∧ n ≤ 41) :
    4 ≤ legacySchema n ∧ legacySchema n ≤ 22 := by
  unfold legacySchema retrySchemaOffset
  split <;> omega

theorem legacySchema_idem {n : ℕ} (h : 4 ≤ n ∧ n ≤ 41) :
    legacySchema (legacySchema n) = legacySchema n :=
  if_neg (Nat.not_lt.2 (legacySchema_range h).2)

namespace OperationRequest

variable (net : AddressText) (r : OperationRequest)

/-- The schema says what the request carries. -/
structure Represents (n : ℕ) : Prop where
  supported : 4 ≤ n ∧ n ≤ 41
  retries : r.serverFailureRetries.isSome = decide (n > 22)
  link : r.route.deviceIfindex.isSome = decide (legacySchema n ≥ 15)
  dns : r.route.dnsServer.isSome = decide (legacySchema n ≥ 19)
  mask : r.route.fwmarkMask.isSome = decide (legacySchema n ≥ 11)
  plan : r.trafficPlan.isSome = decide (baseSchema (legacySchema n) ≥ 9)
  policy : legacySchema n < 11 → r.trafficPolicyExplicit = decide (legacySchema n ≥ 7)
  target : r.targetState = .absentBootstrap ↔ bootstrapSchema (legacySchema n) = true
  capture : r.capturePolicy.isSome = bootstrapSchema (legacySchema n)

/-- The fields of the capture policy. -/
def captureList : List Field :=
  match r.capturePolicy with
  | some policy => [("capture_policy", lit policy.asStr), ("capture_policy_sha256", policy.digest)]
  | none => []

/-- The fields of a schema without retries, in order. -/
def legacyFields (schema : ℕ) : List Field :=
  r.launchFields ++ (r.targetFields schema ++ (r.captureList ++ (r.routeFields net
    ++ (r.tuningFields ++ (r.trafficFields schema ++ (r.planFields ++ (r.maskFields
    ++ (r.linkFields ++ r.dnsFields net))))))))

/-- The field of the retries. -/
def retryFields : List Field :=
  match r.serverFailureRetries with
  | some retries => [("server_failure_retries", display retries.toNat)]
  | none => []

/-- The request that the inner record is of. -/
def withoutRetries : OperationRequest := { r with serverFailureRetries := none }

/-- The record of a request in a schema. -/
def requestText (n : ℕ) : Text :=
  recordText (retryRequestHeader n) (r.legacyFields net (legacySchema n) ++ r.retryFields)

variable {net r}

theorem fieldsForSchema_eq {schema : ℕ} (h : r.capturePolicy.isSome = bootstrapSchema schema) :
    r.fieldsForSchema net schema = .ok (r.legacyFields net schema) := by
  have hcapture : r.captureFields schema = .ok r.captureList := by
    cases hc : r.capturePolicy with
    | none =>
      have hb : bootstrapSchema schema = false := by simpa [hc] using h.symm
      simp only [captureFields, hb, captureList, hc]
      rfl
    | some policy =>
      have hb : bootstrapSchema schema = true := by simpa [hc] using h.symm
      simp only [captureFields, hb, if_true, hc, orError, captureList, bind, Except.bind,
        canonicalSha256_eq]
      rfl
  simp only [fieldsForSchema, hcapture, legacyFields]
  rfl

theorem retryRequestHeader_length {n : ℕ} (h : n ≤ 41) : byteLength (retryRequestHeader n) ≤ 40 := by
  have hdisplay : byteLength (display n) ≤ 2 :=
    (display_short (by decide) (Nat.lt_of_le_of_lt h (by decide))).size
  have h₁ : byteLength (lit "cake-autorate-operation\t") = 24 := by decide
  have h₂ : byteLength (lit "\trequest") = 8 := by decide
  simp only [retryRequestHeader, byteLength_append, h₁, h₂]
  omega

theorem boolText_short (b : Bool) : Short 1 (boolText b) := by cases b <;> decide

theorem getD_short {name : Option Text} (h : ∀ t, name = some t → Short 64 t ∧ t ≠ []) :
    Short 64 (name.getD []) := by
  cases name with
  | none => exact short_nil 64
  | some t => exact (h t rfl).1

theorem fits_launch (f : r.Facts) : Fits 1500 r.launchFields := by
  refine .mono (.cons f.jobId.size <| .cons f.jobToken.size
    <| .cons (codec_uint64.short _).size <| .cons (codec_uint64.short _).size
    <| .cons f.instance_.size <| .cons (OperationKind.codec.short _).size
    <| .cons (OperationOrigin.codec.short _).size <| .cons f.backend.size
    <| .cons (SpeedtestDirection.codec.optionText_short _).size
    <| .cons (codec_uint64.optionText_short _).size
    <| .cons (SpeedtestTopology.codec.optionText_short _).size
    <| .cons f.targetInterface.size .nil) (by decide)

theorem fits_route (f : r.Facts) : Fits 1600 (r.routeFields net) := by
  refine .mono (.cons (getD_short f.section_).size <| .cons (OperationRouteMode.codec.short _).size
    <| .cons (getD_short f.member).size <| .cons f.l3Device.size
    <| .cons (net.codec.optionText_short _).size <| .cons (codec_uint32.optionText_short _).size
    <| .cons (codec_uint32.optionText_short _).size <| .cons f.routeFingerprint.size
    <| .cons f.configFingerprint.size <| .cons f.sqmFingerprint.size .nil) (by decide)

theorem fits_tuning : Fits 700 r.tuningFields := by
  refine .mono (.cons (AutotuneProfile.codec.optionText_short _).size
    <| .cons (CalibrationStrategy.codec.optionText_short _).size
    <| .cons (AccessMedium.codec.optionText_short _).size
    <| .cons (AccessEvidenceSource.codec.optionText_short _).size
    <| .cons (codec_uint8.short _).size
    <| .cons (CapacityLearningPolicy.codec.optionText_short _).size
    <| .cons (codec_uint64.optionText_short _).size <| .cons (codec_uint64.optionText_short _).size
    <| .cons (boolText_short _).size <| .cons (boolText_short _).size
    <| .cons (boolText_short _).size .nil) (by decide)

theorem trafficWord_short (p : TrafficPolicy) : Short 20 (trafficWord p) := by
  cases p with
  | capped maxBytes => exact (by decide : Short 20 (lit "capped"))
  | unlimited => exact (by decide : Short 20 (lit "unlimited"))

theorem fits_target (schema : ℕ) : Fits 100 (r.targetFields schema) := by
  unfold targetFields
  split
  · exact .mono (.cons (OperationTargetState.codec.short _).size .nil) (by decide)
  · exact nil.mono (by decide)

theorem digest_short (policy : AutotuneCapturePolicyId) : Short 64 policy.digest := by
  have hbyte : ∀ b : UInt8, Syscall.hexDigit b = true → 32 ≤ b.toNat ∧ b.toNat < 127 :=
    forall_byte (by decide +kernel)
  unfold digest asciiText
  refine short_of_printable (fun c hc => ?_) ?_
  · obtain ⟨b, hb, rfl⟩ := List.mem_map.1 hc
    have hhex := List.all_eq_true.1 (Syscall.sha256_hex (utf8 policy.values.canonicalText)) b hb
    simpa [printable, toNat_ofNat_byte] using hbyte b hhex
  · rw [List.length_map, Syscall.sha256_length]

theorem fits_capture : Fits 300 r.captureList := by
  unfold captureList
  split
  · exact .mono (.cons (codec.short _).size <| .cons (digest_short _).size .nil) (by decide)
  · exact nil.mono (by decide)

theorem fits_traffic (schema : ℕ) : Fits 200 (r.trafficFields schema) := by
  have hbudget : Fits 100 [("traffic_budget_bytes",
      optionText (fun value : UInt64 => display value.toNat) r.trafficBudget.limitBytes)] :=
    mono (.cons (codec_uint64.optionText_short _).size .nil) (by decide)
  have hpolicy : Fits 100 (if schema ≥ 7 then [("traffic_policy", trafficWord r.trafficBudget)]
      else []) := by
    split
    · exact .mono (.cons (trafficWord_short _).size .nil) (by decide)
    · exact nil.mono (by decide)
  exact hpolicy.append hbudget

theorem fits_plan : Fits 200 r.planFields := by
  unfold planFields
  split
  · exact .mono (.cons (codec_uint64.short _).size <| .cons (codec_uint64.short _).size .nil)
      (by decide)
  · exact nil.mono (by decide)

theorem fits_mask : Fits 100 r.maskFields := by
  unfold maskFields
  split
  · exact .mono (.cons (codec_uint32.short _).size <| .cons (boolText_short _).size .nil)
      (by decide)
  · exact nil.mono (by decide)

theorem fits_link : Fits 100 r.linkFields := by
  unfold linkFields
  split
  · exact .mono (.cons (codec_uint32.short _).size .nil) (by decide)
  · exact nil.mono (by decide)

theorem fits_dns : Fits 100 (r.dnsFields net) := by
  unfold dnsFields
  split
  · exact .mono (.cons (net.codecV4.short _).size .nil) (by decide)
  · exact nil.mono (by decide)

theorem fits_retry : Fits 100 r.retryFields := by
  unfold retryFields
  split
  · exact .mono (.cons (codec_uint8.short _).size .nil) (by decide)
  · exact nil.mono (by decide)

theorem byteLength_requestText_le (f : r.Facts) {n : ℕ} (hn : n ≤ 41) :
    byteLength (r.requestText net n) ≤ maxOperationRecordBytes := by
  have hfields : Fits 5000 (r.legacyFields net (legacySchema n) ++ r.retryFields) :=
    mono (((fits_launch f).append <| (fits_target _).append <| fits_capture.append
      <| (fits_route f).append <| fits_tuning.append <| (fits_traffic _).append <| fits_plan.append
      <| fits_mask.append <| fits_link.append fits_dns).append fits_retry) (by decide)
  have hheader := retryRequestHeader_length hn
  have := @byteLength_recordText_le (retryRequestHeader n) _ _ hfields
  unfold maxOperationRecordBytes
  exact this.trans (by omega)

theorem legacySchema_eq (n : ℕ) :
    (if decide (n > 22) = true then n - retrySchemaOffset else n) = legacySchema n := by
  simp [legacySchema]

theorem encodeFields_eq {n : ℕ} (f : r.Facts) (h : r.Represents n) :
    r.encodeFields net n (legacySchema n) = .ok (r.requestText net n) := by
  have hlen := @byteLength_requestText_le net r f n h.supported.2
  rw [encodeFields, fieldsForSchema_eq h.capture]
  cases hr : r.serverFailureRetries with
  | some retries =>
    simp only [requestText, retryFields, hr] at hlen ⊢
    simp only [bind, Except.bind, encodeRecord, hlen, decide_true, check_true]
    rfl
  | none =>
    have hn : ¬ n > 22 := by simpa [hr] using h.retries
    have hlegacy : legacySchema n = n := if_neg hn
    simp only [requestText, retryFields, hr, List.append_nil, hlegacy] at hlen ⊢
    simp only [bind, Except.bind, encodeRecord, hlen, decide_true, check_true]
    rfl

/-- **`encode_for_schema` writes a request that the schema represents.** -/
theorem encodeForSchema_eq_ok {n : ℕ} {s : Text} : r.encodeForSchema net n = .ok s ↔
    r.validate net = .ok () ∧ r.Represents n ∧ s = r.requestText net n := by
  have hoffset : retrySchemaOffset = 19 := rfl
  simp only [encodeForSchema, andThen_eq_ok, check_ok, legacySchema_eq]
  constructor
  · rintro ⟨hn, hretries, hlink, hdns, hmask, hv, hplan, hpolicy, hmanaged, hcapture, hboot, htext⟩
    have f := facts hv
    have htarget : r.targetState = .absentBootstrap ↔ bootstrapSchema (legacySchema n) = true := by
      cases ht : r.targetState with
      | existingManaged => simpa [ht] using hboot
      | absentBootstrap => simpa [ht] using hmanaged
    have hrep : r.Represents n := by
      constructor
      · simp only [Bool.or_eq_true, Bool.and_eq_true, decide_eq_true_eq] at hn
        omega
      · exact (beq_iff_eq.1 hretries).symm
      · exact (beq_iff_eq.1 hlink).symm
      · exact (beq_iff_eq.1 hdns).symm
      · exact (beq_iff_eq.1 hmask).symm
      · exact (beq_iff_eq.1 hplan).symm
      · intro hlt
        simp only [hlt, decide_true, Bool.true_and, Bool.not_eq_true', bne_eq_false_iff_eq] at hpolicy
        exact hpolicy.symm
      · exact htarget
      · rw [Bool.eq_iff_iff, f.capture, htarget]
    refine ⟨hv, hrep, ?_⟩
    rw [encodeFields_eq f hrep] at htext
    exact (Except.ok.inj htext).symm
  · rintro ⟨hv, hrep, rfl⟩
    have f := facts hv
    have hn := hrep.supported
    refine ⟨?_, by simp [hrep.retries], by simp [hrep.link], by simp [hrep.dns], by simp [hrep.mask],
      hv, by simp [hrep.plan], ?_, ?_, ?_, ?_, encodeFields_eq f hrep⟩
    · simp only [Bool.or_eq_true, Bool.and_eq_true, decide_eq_true_eq]
      omega
    · by_cases hlt : legacySchema n < 11
      · simp [hrep.policy hlt]
      · simp [hlt]
    · have := hrep.target
      cases ht : r.targetState <;> simp_all
    · have := hrep.capture
      cases hb : bootstrapSchema (legacySchema n) <;> simp_all
    · have := hrep.target
      cases hb : bootstrapSchema (legacySchema n) <;> simp_all

/-- The schemas that carry the same requests. -/
def SameRequests (m n : ℕ) : Prop :=
  (m = 4 ∧ n = 5) ∨ (m = 5 ∧ n = 4) ∨ (m = 23 ∧ n = 24) ∨ (m = 24 ∧ n = 23)

/-- What a schema carries. -/
def carried (n : ℕ) : Bool × Bool × Bool × Bool × Bool :=
  (decide (n ≥ 15), decide (n ≥ 19), decide (n ≥ 11), decide (baseSchema n ≥ 9), bootstrapSchema n)

theorem carried_inj : ∀ m : Fin 23, ∀ n : Fin 23, 4 ≤ m.val → 4 ≤ n.val → carried m = carried n →
    (m.val < 11 → n.val < 11 → decide (m.val ≥ 7) = decide (n.val ≥ 7)) →
    m = n ∨ (m.val = 4 ∧ n.val = 5) ∨ (m.val = 5 ∧ n.val = 4) := by
  decide +kernel

theorem Represents.carried_eq {n : ℕ} (h : r.Represents n) :
    carried (legacySchema n) = (r.route.deviceIfindex.isSome, r.route.dnsServer.isSome,
      r.route.fwmarkMask.isSome, r.trafficPlan.isSome, r.capturePolicy.isSome) := by
  rw [h.link, h.dns, h.mask, h.plan, h.capture]
  rfl

/-- **A request has one schema**, but for the two ways to write a managed one. -/
theorem Represents.unique {m n : ℕ} (hm : r.Represents m) (hn : r.Represents n) :
    m = n ∨ SameRequests m n := by
  have hm' := hm.supported
  have hn' := hn.supported
  have hretries : decide (m > 22) = decide (n > 22) := hm.retries.symm.trans hn.retries
  have hlm := legacySchema_range hm'
  have hln := legacySchema_range hn'
  have hlegacy := carried_inj ⟨_, Nat.lt_succ_of_le hlm.2⟩ ⟨_, Nat.lt_succ_of_le hln.2⟩ hlm.1
    hln.1 (hm.carried_eq.trans hn.carried_eq.symm)
    (fun h₁ h₂ => (hm.policy h₁).symm.trans (hn.policy h₂))
  simp only [Fin.mk.injEq, decide_eq_decide] at hlegacy hretries
  unfold legacySchema retrySchemaOffset at hlegacy
  unfold SameRequests
  split at hlegacy <;> split at hlegacy <;> omega

/-- The schema that `encode` writes. -/
def schema (r : OperationRequest) : ℕ :=
  if r.serverFailureRetries.isSome then r.encodeLegacySchema + retrySchemaOffset
  else r.encodeLegacySchema

/-- `encode_legacy_schema` as a function of what the request carries. -/
def legacyOf (mask dns link plan explicit absent : Bool) : ℕ :=
  if mask then
    11 + absent.toNat + 2 * plan.toNat + (if dns then 8 else if link then 4 else 0)
  else if plan then 9 + absent.toNat
  else 5 + absent.toNat + 2 * explicit.toNat

theorem encodeLegacySchema_eq : r.encodeLegacySchema = legacyOf r.route.fwmarkMask.isSome
    r.route.dnsServer.isSome r.route.deviceIfindex.isSome r.trafficPlan.isSome
    r.trafficPolicyExplicit (r.targetState == .absentBootstrap) := by
  unfold encodeLegacySchema
  generalize r.route.fwmarkMask.isSome = mask, r.route.dnsServer.isSome = dns,
    r.route.deviceIfindex.isSome = link, r.trafficPlan.isSome = plan,
    r.trafficPolicyExplicit = explicit
  cases r.targetState
  · revert mask dns link plan explicit
    decide
  · revert mask dns link plan explicit
    decide

theorem legacyOf_spec : ∀ mask dns link plan explicit absent : Bool,
    (dns = true → link = true) → (link = true → mask = true) → (plan = true → explicit = true) →
    (5 ≤ legacyOf mask dns link plan explicit absent ∧
      legacyOf mask dns link plan explicit absent ≤ 22) ∧
    carried (legacyOf mask dns link plan explicit absent) = (link, dns, mask, plan, absent) ∧
    (legacyOf mask dns link plan explicit absent < 11 →
      explicit = decide (legacyOf mask dns link plan explicit absent ≥ 7)) := by
  decide

/-- **`encode` selects a schema that represents the request.** -/
theorem schema_represents (f : r.Facts) : r.Represents r.schema := by
  have habsent : r.capturePolicy.isSome = (r.targetState == .absentBootstrap) := by
    rw [Bool.eq_iff_iff, f.capture, beq_iff_eq]
  obtain ⟨hrange, hcarried, hpolicy⟩ := legacyOf_spec r.route.fwmarkMask.isSome
    r.route.dnsServer.isSome r.route.deviceIfindex.isSome r.trafficPlan.isSome
    r.trafficPolicyExplicit (r.targetState == .absentBootstrap) f.link_of_dns f.mask_of_link
    f.explicit_of_plan
  rw [← encodeLegacySchema_eq] at hrange hcarried hpolicy
  have hschema : legacySchema r.schema = r.encodeLegacySchema := by
    unfold legacySchema schema retrySchemaOffset
    split <;> split <;> omega
  simp only [carried, Prod.mk.injEq] at hcarried
  obtain ⟨hlink, hdns, hmask, hplan, hboot⟩ := hcarried
  constructor
  · unfold schema retrySchemaOffset
    split <;> omega
  · unfold schema retrySchemaOffset
    cases r.serverFailureRetries with
    | none => simpa using hrange.2
    | some _ => simp only [Option.isSome_some, if_true, true_eq_decide_iff]; omega
  · rw [hschema, hlink]
  · rw [hschema, hdns]
  · rw [hschema, hmask]
  · rw [hschema, hplan]
  · rw [hschema]
    exact hpolicy
  · rw [hschema, hboot, beq_iff_eq]
  · rw [hschema, hboot, habsent]

theorem encode_eq_ok {s : Text} : r.encode net = .ok s ↔
    r.validate net = .ok () ∧ s = r.requestText net r.schema := by
  show r.encodeForSchema net r.schema = .ok s ↔ _
  rw [encodeForSchema_eq_ok]
  constructor
  · exact fun ⟨hv, _, hs⟩ => ⟨hv, hs⟩
  · exact fun ⟨hv, hs⟩ => ⟨hv, schema_represents (facts hv), hs⟩

end OperationRequest

end CakeAutorate.Protocol
