/-
# The codec is faithful

`decode` reads back what `encode_for_schema` writes, for every schema, and accepts
nothing else: an accepted text is the record of the request it decodes to, under
the schema of its header.
-/

import CakeAutorate.Protocol.Schema

namespace CakeAutorate.Protocol

open Wire List

theorem parseBool_boolText (b : Bool) : parseBool (boolText b) = .ok b := by cases b <;> rfl

namespace Reads

variable {α β : Type} {text : α → Text} {parse : Text → Option α} {bound : ℕ} {key name : String}
  {fs : List Field} {b : β}

theorem required {k : α → RecordReader β} {a : α} (c : TextCodec text parse bound)
    (hk : PlainKey key) (h : Reads (k a) fs b) :
    Reads (RecordReader.field key >>= fun value => liftM (orError (parse value) name) >>= k)
      ((key, text a) :: fs) b :=
  .field_bind hk (c.short a).writable (.lift_bind (c.orError_eq a name) h)

variable {k : Option α → RecordReader β} {a : Option α}

theorem choice (c : TextCodec text parse bound) (hk : PlainKey key) (h : Reads (k a) fs b) :
    Reads (RecordReader.field key >>= fun value => liftM (parseOptionalEnum value parse name) >>= k)
      ((key, optionText text a) :: fs) b :=
  .field_bind hk (c.optionText_short a).writable (.lift_bind (c.parseOptionalEnum_eq a name) h)

theorem optional (c : TextCodec text parse bound) (hk : PlainKey key) (h : Reads (k a) fs b) :
    Reads (RecordReader.field key >>= fun value => liftM (optionalParsed parse name value) >>= k)
      ((key, optionText text a) :: fs) b :=
  .field_bind hk (c.optionText_short a).writable (.lift_bind (c.optionalParsed_eq a name) h)

theorem flag {k : Bool → RecordReader β} {flag : Bool} (hk : PlainKey key)
    (h : Reads (k flag) fs b) :
    Reads (RecordReader.field key >>= fun value => liftM (parseBool value) >>= k)
      ((key, boolText flag) :: fs) b :=
  .field_bind hk (OperationRequest.boolText_short flag).writable
    (.lift_bind (parseBool_boolText flag) h)

end Reads

theorem optionalString_getD {name : Option Text} (h : ∀ t, name = some t → Short 64 t ∧ t ≠ []) :
    optionalString (name.getD []) = name := by
  cases name with
  | none => rfl
  | some t => simp [optionalString, (h t rfl).2]

namespace OperationRequest

variable {net : AddressText} {r : OperationRequest}

theorem reads_launch (f : r.Facts) : Reads readLaunch r.launchFields { unread with
    identity := { r.identity with
      routeFingerprint := [], configFingerprint := [], sqmFingerprint := [] },
    createdUnixMs := r.createdUnixMs, deadlineUnixMs := r.deadlineUnixMs, origin := r.origin,
    backend := r.backend, speedtestDirection := r.speedtestDirection,
    speedtestServerId := r.speedtestServerId, speedtestTopology := r.speedtestTopology } := by
  refine .field_bind (by decide) f.jobId.writable ?_
  refine .field_bind (by decide) f.jobToken.writable ?_
  refine .required codec_uint64 (by decide) ?_
  refine .required codec_uint64 (by decide) ?_
  refine .field_bind (by decide) f.instance_.writable ?_
  refine .required OperationKind.codec (by decide) ?_
  refine .required OperationOrigin.codec (by decide) ?_
  refine .field_bind (by decide) f.backend.writable ?_
  refine .choice SpeedtestDirection.codec (by decide) ?_
  refine .optional codec_uint64 (by decide) ?_
  refine .choice SpeedtestTopology.codec (by decide) ?_
  exact .field_bind (by decide) f.targetInterface.writable (.pure _)

variable {n : ℕ}

theorem reads_targetState (h : r.Represents n) :
    Reads (readTargetState (legacySchema n)) (r.targetFields (legacySchema n)) r.targetState := by
  unfold readTargetState targetFields
  split
  · refine .field_bind (by decide) (OperationTargetState.codec.short _).writable ?_
    exact .lift (OperationTargetState.codec.orError_eq _ _)
  · rename_i hlt
    have hfour : legacySchema n = 4 := by
      have := h.supported
      unfold legacySchema retrySchemaOffset at hlt ⊢
      split at hlt <;> split <;> omega
    have hmanaged : r.targetState = .existingManaged := by
      have hboot : bootstrapSchema (legacySchema n) = false := by rw [hfour]; decide
      cases ht : r.targetState with
      | existingManaged => rfl
      | absentBootstrap =>
        rw [h.target.1 ht] at hboot
        cases hboot
    rw [hmanaged]
    exact .pure _

theorem reads_capturePolicy (h : r.Represents n) :
    Reads (readCapturePolicy (legacySchema n)) r.captureList r.capturePolicy := by
  unfold readCapturePolicy captureList
  rw [← h.capture]
  cases r.capturePolicy with
  | none => exact .pure _
  | some policy =>
    refine .required AutotuneCapturePolicyId.codec (by decide) ?_
    refine .field_bind (by decide) (digest_short policy).writable ?_
    refine .lift_bind policy.canonicalSha256_eq ?_
    exact .lift_bind (a := ()) (check_ok.2 (by simp)) (.pure _)

theorem reads_route (f : r.Facts) (q : OperationRequest) :
    Reads (readRoute net q) (r.routeFields net)
    { q with
      identity := { q.identity with
        routeFingerprint := r.identity.routeFingerprint,
        configFingerprint := r.identity.configFingerprint,
        sqmFingerprint := r.identity.sqmFingerprint }
      route := { q.route with
        mode := r.route.mode, mwan3Member := r.route.mwan3Member, l3Device := r.route.l3Device,
        sourceIp := r.route.sourceIp, fwmark := r.route.fwmark,
        routingTable := r.route.routingTable }
      managedSqmSection := r.managedSqmSection } := by
  have hsection := optionalString_getD f.section_
  have hmember := optionalString_getD f.member
  refine .field_bind (by decide) (getD_short f.section_).writable ?_
  refine .required OperationRouteMode.codec (by decide) ?_
  refine .field_bind (by decide) (getD_short f.member).writable ?_
  refine .field_bind (by decide) f.l3Device.writable ?_
  refine .optional net.codec (by decide) ?_
  refine .optional codec_uint32 (by decide) ?_
  refine .optional codec_uint32 (by decide) ?_
  refine .field_bind (by decide) f.routeFingerprint.writable ?_
  refine .field_bind (by decide) f.configFingerprint.writable ?_
  refine .field_bind (by decide) f.sqmFingerprint.writable ?_
  rw [hsection, hmember]
  exact .pure _

theorem reads_tuning (q : OperationRequest) : Reads (readTuning q) r.tuningFields
    { q with
      profile := r.profile, strategy := r.strategy, accessMedium := r.accessMedium,
      accessSource := r.accessSource, accessConfidencePercent := r.accessConfidencePercent,
      capacityLearningPolicy := r.capacityLearningPolicy, serviceDlCapKbps := r.serviceDlCapKbps,
      serviceUlCapKbps := r.serviceUlCapKbps, allowSqmDisable := r.allowSqmDisable,
      allowActiveTraffic := r.allowActiveTraffic,
      scheduledAutoApplyRequested := r.scheduledAutoApplyRequested } := by
  refine .choice AutotuneProfile.codec (by decide) ?_
  refine .choice CalibrationStrategy.codec (by decide) ?_
  refine .choice AccessMedium.codec (by decide) ?_
  refine .choice AccessEvidenceSource.codec (by decide) ?_
  refine .required codec_uint8 (by decide) ?_
  refine .choice CapacityLearningPolicy.codec (by decide) ?_
  refine .optional codec_uint64 (by decide) ?_
  refine .optional codec_uint64 (by decide) ?_
  refine .flag (by decide) ?_
  refine .flag (by decide) ?_
  exact .flag (by decide) (.pure _)

theorem parseBudget_eq (p : TrafficPolicy) :
    parseBudget (trafficWord p) (optionText (fun value => display value.toNat) p.limitBytes)
      = .ok p := by
  cases p with
  | unlimited => rfl
  | capped maxBytes =>
    have hparse : parseU64 "traffic_budget_bytes" (display maxBytes.toNat) = .ok maxBytes :=
      codec_uint64.orError_eq maxBytes _
    simp only [parseBudget, trafficWord, TrafficPolicy.limitBytes, optionText, Option.map_some,
      Option.getD_some, if_true, hparse]
    rfl

theorem reads_budget (f : r.Facts) (h : r.Represents n) :
    Reads (readBudget (legacySchema n)) (r.trafficFields (legacySchema n)) r.trafficBudget := by
  unfold readBudget trafficFields
  split
  · refine .field_bind (by decide) (trafficWord_short _).writable ?_
    refine .field_bind (by decide) (codec_uint64.optionText_short _).writable ?_
    exact .lift (parseBudget_eq _)
  · rename_i hlt
    have hword : trafficWord r.trafficBudget = lit "capped" := by
      have hexplicit : r.trafficPolicyExplicit = false := by
        rw [h.policy (by omega)]
        simpa using hlt
      cases hb : r.trafficBudget with
      | capped maxBytes => rfl
      | unlimited =>
        rw [f.explicit_of_unlimited hb] at hexplicit
        cases hexplicit
    have hbudget := parseBudget_eq r.trafficBudget
    rw [hword] at hbudget
    refine .field_bind (by decide) (codec_uint64.optionText_short _).writable ?_
    exact .lift hbudget

theorem reads_plan (h : r.Represents n) :
    Reads (readPlan (legacySchema n)) r.planFields r.trafficPlan := by
  have hplan := h.plan
  unfold readPlan planFields
  cases hp : r.trafficPlan with
  | none =>
    rw [if_neg (by simpa [hp] using hplan)]
    exact .pure _
  | some plan =>
    rw [if_pos (by simpa [hp] using hplan)]
    refine .required codec_uint64 (by decide) ?_
    exact .required codec_uint64 (by decide) (.pure _)

theorem reads_mask (h : r.Represents n) :
    Reads (readMask (legacySchema n)) r.maskFields
      (r.route.fwmarkMask, r.trafficPolicyExplicit) := by
  have hmask := h.mask
  unfold readMask maskFields
  cases hm : r.route.fwmarkMask with
  | none =>
    have hlt : legacySchema n < 11 := by simpa [hm] using hmask
    rw [if_neg (by omega), h.policy hlt]
    exact .pure _
  | some mask =>
    rw [if_pos (by simpa [hm] using hmask)]
    refine .required codec_uint32 (by decide) ?_
    exact .flag (by decide) (.pure _)

theorem reads_link (h : r.Represents n) :
    Reads (readLink (legacySchema n)) r.linkFields r.route.deviceIfindex := by
  have hlink := h.link
  unfold readLink linkFields
  cases hl : r.route.deviceIfindex with
  | none =>
    rw [if_neg (by simpa [hl] using hlink)]
    exact .pure _
  | some index =>
    rw [if_pos (by simpa [hl] using hlink)]
    exact .required codec_uint32 (by decide) (.pure _)

theorem reads_dns (h : r.Represents n) :
    Reads (readDns net (legacySchema n)) (r.dnsFields net) r.route.dnsServer := by
  have hdns := h.dns
  unfold readDns dnsFields
  cases hd : r.route.dnsServer with
  | none =>
    rw [if_neg (by simpa [hd] using hdns)]
    exact .pure _
  | some server =>
    rw [if_pos (by simpa [hd] using hdns)]
    exact .required net.codecV4 (by decide) (.pure _)

theorem reads_fields (f : r.Facts) {n : ℕ} (h : r.Represents n) :
    Reads (readFields net (legacySchema n)) (r.legacyFields net (legacySchema n))
      r.withoutRetries := by
  refine (reads_launch f).bind ?_
  refine (reads_targetState h).bind ?_
  refine (reads_capturePolicy h).bind ?_
  refine (reads_route f _).bind ?_
  refine (reads_tuning _).bind ?_
  refine (reads_budget f h).bind ?_
  refine (reads_plan h).bind ?_
  refine (reads_mask h).bind ?_
  refine (reads_link h).bind ?_
  rw [← append_nil (r.dnsFields net)]
  exact (reads_dns h).bind (.pure _)

theorem retryRequestHeader_inj {m n : ℕ} (h : retryRequestHeader m = retryRequestHeader n) :
    m = n := by
  have hdisplay : display m = display n :=
    append_cancel_right (append_cancel_left h)
  have := congrArg (fun t => Nat.ofDigitChars 10 t 0) hdisplay
  simpa [display] using this

theorem retryRequestHeader_plain (n : ℕ) :
    '\n' ∉ retryRequestHeader n ∧ '\r' ∉ retryRequestHeader n := by
  have hdigit : ∀ c, c.isDigit = false → c ∉ display n := by
    intro c hc hmem
    rw [display_isDigit hmem] at hc
    cases hc
  simp only [retryRequestHeader, mem_append, not_or]
  exact ⟨⟨by decide, hdigit _ (by decide), by decide⟩, by decide, hdigit _ (by decide), by decide⟩

theorem find_header (n : ℕ) : ∀ length start : ℕ,
    ((range' start length).find? fun schema =>
      some (retryRequestHeader n) == some (retryRequestHeader schema))
      = if start ≤ n ∧ n < start + length then some n else none := by
  intro length
  induction length with
  | zero =>
    intro start
    rw [if_neg (by omega)]
    rfl
  | succ length ih =>
    intro start
    rw [range'_succ, find?_cons]
    by_cases hn : n = start
    · subst hn
      simp
    · have hne : (some (retryRequestHeader n) == some (retryRequestHeader start)) = false := by
        simpa using fun h => hn (retryRequestHeader_inj h)
      rw [hne, ih (start + 1)]
      by_cases hin : start + 1 ≤ n ∧ n < start + 1 + length
      · rw [if_pos hin, if_pos (by omega)]
      · rw [if_neg hin, if_neg (by omega)]

theorem lines_requestText (f : r.Facts) (h : r.Represents n) :
    lines (r.requestText net n) = retryRequestHeader n
      :: ((r.legacyFields net (legacySchema n) ++ r.retryFields).map fieldLine ++ [[]]) := by
  obtain ⟨hn, hr⟩ := retryRequestHeader_plain n
  refine lines_recordText hn hr fun field hfield => ?_
  rcases mem_append.1 hfield with hmem | hmem
  · exact (reads_fields f h).plain field hmem
  · unfold retryFields at hmem
    split at hmem
    · rw [mem_singleton] at hmem
      rw [hmem]
      exact (by decide : PlainKey "server_failure_retries")
    · cases hmem

theorem head_requestText (f : r.Facts) (h : r.Represents n) :
    (lines (r.requestText net n)).head? = some (retryRequestHeader n) := by
  rw [lines_requestText f h]
  rfl

theorem decodeLegacy_requestText (hv : r.validate net = .ok ()) (h : r.Represents n)
    (hretries : r.serverFailureRetries = none) :
    decodeLegacy net (r.requestText net n) = .ok r := by
  have f := facts hv
  have hn : ¬ n > 22 := by simpa [hretries] using h.retries
  have hlegacy : legacySchema n = n := if_neg hn
  have hsupported := h.supported
  obtain ⟨hnl, hcr⟩ := retryRequestHeader_plain n
  have htext : r.requestText net n = recordText (retryRequestHeader n) (r.legacyFields net n) := by
    simp [requestText, retryFields, hretries, hlegacy]
  have hread : RecordReader.readRecord (r.requestText net n) (retryRequestHeader n)
      (readFields net n) = .ok r := by
    have hlen := @byteLength_requestText_le net r f n hsupported.2
    have hreads := @reads_fields net r f n h
    rw [hlegacy] at hreads
    have heta : r.withoutRetries = r := by rw [withoutRetries, ← hretries]
    rw [heta] at hreads
    rw [htext] at hlen ⊢
    exact readRecord_recordText hnl hcr hlen hreads
  have hencode : r.encodeForSchema net n = .ok (r.requestText net n) :=
    encodeForSchema_eq_ok.2 ⟨hv, h, rfl⟩
  have hfind : ((range' 4 19).find? fun schema =>
      (lines (r.requestText net n)).head? == some (retryRequestHeader schema)) = some n := by
    rw [head_requestText f h, find_header, if_pos (by omega)]
  simp only [decodeLegacy, hfind, orError, hread, hv, hencode, bind, Except.bind, beq_self_eq_true,
    check_true]
  rfl

theorem lastLine_append {front : List Text} {line : Text} (h : line ≠ []) :
    lastLine (front ++ [line, []]) = some front.length := by
  have hne : line.isEmpty = false := by simpa using h
  simp [lastLine, findIdx?_cons, hne]

theorem parseRetries_fieldLine {retries : UInt8} (h : retries ≤ 10) :
    parseRetries (fieldLine ("server_failure_retries", display retries.toNat)) = .ok retries := by
  have hlt : retries.toNat < 10 ^ 2 := by
    have : retries.toNat ≤ 10 := UInt8.le_iff_toNat_le.1 h
    omega
  have hsize : byteLength (display retries.toNat) ≤ 2 := (display_short (by decide) hlt).size
  have hempty : (display retries.toNat).isEmpty = false := by
    simpa using display_ne_nil retries.toNat
  have hdigits : (display retries.toNat).all Char.isDigit = true := by
    rw [all_eq_true]
    exact fun c hc => display_isDigit hc
  have hline : fieldLine ("server_failure_retries", display retries.toNat)
      = lit "server_failure_retries=" ++ display retries.toNat := by
    simp only [fieldLine, percentEncode_digits fun c hc => display_isDigit hc]
    rfl
  have hsize' : decide (byteLength (display retries.toNat) > 2) = false := by simpa using hsize
  have hparse : orError (parseUInt8 (display retries.toNat)) "invalid server failure retries"
      = .ok retries := codec_uint8.orError_eq retries _
  simp only [parseRetries, hline, stripPrefix_append, orError, bind, Except.bind, hempty, hsize',
    hdigits, Bool.or_self, Bool.not_true, Bool.not_false, check_true] at hparse ⊢
  exact hparse

theorem legacyText_eq {header input : Text} {fields : List Field} (h : input.getLast? = some '\n') :
    legacyText header (fields.map fieldLine ++ [[]]) input = recordText header fields := by
  have hmove : ∀ ls : List Text, ls.flatMap (fun line => '\n' :: line) ++ ['\n']
      = '\n' :: ls.flatMap fun line => line ++ ['\n'] := by
    intro ls
    induction ls with
    | nil => rfl
    | cons l ls ih =>
      simp only [flatMap_cons, append_assoc, ih, cons_append, nil_append]
  rw [legacyText, if_pos h, append_assoc, hmove, recordText, bodyText]
  simp

theorem getLast_recordText (header : Text) (fields : List Field) :
    (recordText header fields).getLast? = some '\n' := by
  obtain ⟨t, ht⟩ := recordText_suffix header fields
  rw [ht]
  simp [lit]

theorem validate_withoutRetries (hv : r.validate net = .ok ()) :
    r.withoutRetries.validate net = .ok () := by
  obtain ⟨-, hrest⟩ := validate_eq_ok.1 hv
  exact validate_eq_ok.2 ⟨rfl, hrest⟩

theorem represents_withoutRetries (h : r.Represents n) :
    r.withoutRetries.Represents (legacySchema n) := by
  have hle := legacySchema_range h.supported
  have hlegacy := legacySchema_idem h.supported
  constructor
  · omega
  · simpa [withoutRetries] using hle.2
  · simpa [withoutRetries, hlegacy] using h.link
  · simpa [withoutRetries, hlegacy] using h.dns
  · simpa [withoutRetries, hlegacy] using h.mask
  · simpa [withoutRetries, hlegacy] using h.plan
  · simpa [withoutRetries, hlegacy] using h.policy
  · simpa [withoutRetries, hlegacy] using h.target
  · simpa [withoutRetries, hlegacy] using h.capture

theorem retry_lines (front : List Text) (line : Text) :
    (front ++ [line, []]).getD front.length [] = line ∧
      (front ++ [line, []]).take front.length
        ++ (front ++ [line, []]).drop (front.length + 1) = front ++ [[]] := by
  constructor
  · simp
  · simp [drop_append]

theorem decodeRetry_requestText (hv : r.validate net = .ok ()) (h : r.Represents n)
    {retries : UInt8} (hr : r.serverFailureRetries = some retries) :
    decodeRetry net n (r.requestText net n) = .ok r := by
  have f := facts hv
  have hn : n > 22 := by simpa [hr] using h.retries
  have hlegacy : n - retrySchemaOffset = legacySchema n := (if_pos hn).symm
  have hheader : legacyRequestHeader (legacySchema n)
      = .ok (retryRequestHeader (legacySchema n)) := if_pos (legacySchema_range h.supported)
  have hrest : (lines (r.requestText net n)).tail
      = (r.legacyFields net (legacySchema n)).map fieldLine
        ++ [fieldLine ("server_failure_retries", display retries.toNat), []] := by
    rw [lines_requestText f h]
    simp [retryFields, hr]
  obtain ⟨hline, hothers⟩ := retry_lines ((r.legacyFields net (legacySchema n)).map fieldLine)
    (fieldLine ("server_failure_retries", display retries.toNat))
  have hlast := @lastLine_append ((r.legacyFields net (legacySchema n)).map fieldLine)
    (fieldLine ("server_failure_retries", display retries.toNat)) (by simp [fieldLine, lit])
  have htext : legacyText (retryRequestHeader (legacySchema n))
      ((r.legacyFields net (legacySchema n)).map fieldLine ++ [[]]) (r.requestText net n)
      = r.withoutRetries.requestText net (legacySchema n) := by
    have hfields : r.withoutRetries.requestText net (legacySchema n)
        = recordText (retryRequestHeader (legacySchema n)) (r.legacyFields net (legacySchema n)) := by
      rw [requestText, legacySchema_idem h.supported, retryFields, withoutRetries, append_nil]
      rfl
    rw [hfields, requestText, legacyText_eq (getLast_recordText _ _)]
  have hdecode := decodeLegacy_requestText (validate_withoutRetries hv)
    (represents_withoutRetries h) rfl
  have hencode : r.encodeForSchema net n = .ok (r.requestText net n) :=
    encodeForSchema_eq_ok.2 ⟨hv, h, rfl⟩
  have heta : { r.withoutRetries with serverFailureRetries := some retries } = r := by
    rw [withoutRetries, ← hr]
  unfold decodeRetry
  simp only [hrest, hlast, orError, bind, Except.bind, hline, hothers,
    parseRetries_fieldLine (f.retries retries hr), hlegacy, hheader, htext, hdecode, heta, hv,
    hencode, beq_self_eq_true, check_true]
  rfl

/-- **Every record reads back.** -/
theorem decode_requestText (hv : r.validate net = .ok ()) (h : r.Represents n) :
    decode net (r.requestText net n) = .ok r := by
  have f := facts hv
  have hsupported := h.supported
  unfold decode
  rw [head_requestText f h, find_header]
  cases hr : r.serverFailureRetries with
  | none =>
    have hn : ¬ n > 22 := by simpa [hr] using h.retries
    rw [if_neg (by unfold retrySchemaOffset; omega)]
    exact decodeLegacy_requestText hv h hr
  | some retries =>
    have hn : n > 22 := by simpa [hr] using h.retries
    rw [if_pos (by unfold retrySchemaOffset; omega)]
    exact decodeRetry_requestText hv h hr

theorem decodeLegacy_eq_ok {s : Text} (h : decodeLegacy net s = .ok r) :
    ∃ n, (lines s).head? = some (retryRequestHeader n) ∧ r.encodeForSchema net n = .ok s := by
  simp only [decodeLegacy, bind_ok] at h
  obtain ⟨n, hn, q, -, _, -, canonical, hcanonical, _, hc, hq⟩ := h
  obtain rfl : q = r := Except.ok.inj hq
  obtain rfl : canonical = s := by simpa using check_ok.1 hc
  have hhead := find?_some (orError_eq_ok.1 hn)
  exact ⟨n, by simpa using hhead, hcanonical⟩

theorem decodeRetry_eq_ok {s : Text} (h : decodeRetry net n s = .ok r) :
    r.encodeForSchema net n = .ok s := by
  simp only [decodeRetry, bind_ok] at h
  obtain ⟨_, -, _, -, _, -, q, -, _, -, canonical, hcanonical, _, hc, hq⟩ := h
  cases hq
  obtain rfl : canonical = s := by simpa using check_ok.1 hc
  exact hcanonical

/-- **An accepted text is the record of its request under the schema of its header.** -/
theorem decode_eq_ok {s : Text} (h : decode net s = .ok r) :
    ∃ n, (lines s).head? = some (retryRequestHeader n) ∧ r.encodeForSchema net n = .ok s := by
  unfold decode at h
  split at h
  · rename_i n hn
    have hhead := find?_some hn
    exact ⟨n, by simpa using hhead, decodeRetry_eq_ok h⟩
  · exact decodeLegacy_eq_ok h

end OperationRequest

/-- An octet as `Ipv4Addr` writes and reads it. -/
def parseOctet (t : Text) : Option UInt8 :=
  (parseUInt8 t).bind fun n => if display n.toNat = t then some n else none

theorem parseOctet_display (n : UInt8) : parseOctet (display n.toNat) = some n := by
  have := codec_uint8.parse_text n
  simp [parseOctet, this]

/-- `Display` of an IPv4 address. -/
def dotted (ip : Ipv4Addr) : Text :=
  display ip.a.toNat ++ '.' :: (display ip.b.toNat ++ '.' :: (display ip.c.toNat
    ++ '.' :: display ip.d.toNat))

/-- `FromStr` of an IPv4 address. -/
def parseDotted (t : Text) : Option Ipv4Addr := do
  let (a, t) ← splitOnce '.' t
  let (b, t) ← splitOnce '.' t
  let (c, d) ← splitOnce '.' t
  return ⟨← parseOctet a, ← parseOctet b, ← parseOctet c, ← parseOctet d⟩

theorem dot_not_mem_display (n : ℕ) : '.' ∉ display n := by
  intro h
  exact absurd (display_isDigit h) (by decide)

theorem parseDotted_dotted (ip : Ipv4Addr) : parseDotted (dotted ip) = some ip := by
  simp only [parseDotted, dotted, splitOnce_append _ (dot_not_mem_display _), bind, Option.bind,
    parseOctet_display]
  rfl

theorem length_display_octet (n : UInt8) : (display n.toNat).length ≤ 3 :=
  length_display_le (by decide) (n.toNat_lt.trans (by decide))

theorem dotted_length (ip : Ipv4Addr) : (dotted ip).length ≤ 15 := by
  have ha := length_display_octet ip.a
  have hb := length_display_octet ip.b
  have hc := length_display_octet ip.c
  have hd := length_display_octet ip.d
  simp only [dotted, length_append, length_cons]
  omega

theorem dotted_chars {ip : Ipv4Addr} {c : Char} (hc : c ∈ dotted ip) :
    isAsciiAlphanumeric c = true ∨ c = '.' := by
  have hdigit : ∀ {n : ℕ}, c ∈ display n → isAsciiAlphanumeric c = true :=
    fun h => alphanumeric_of_digit (display_isDigit h)
  simp only [dotted, mem_append, mem_cons] at hc
  rcases hc with h | h | h | h | h | h | h
  · exact .inl (hdigit h)
  · exact .inr h
  · exact .inl (hdigit h)
  · exact .inr h
  · exact .inl (hdigit h)
  · exact .inr h
  · exact .inl (hdigit h)

/-- IPv4 as it is written; an IPv6 address as its number. -/
def addressText : AddressText where
  displayV4 := dotted
  parseV4 := parseDotted
  display
    | .v4 ip => dotted ip
    | .v6 ip => display ip.toNat
  parse t := match parseDotted t with
    | some ip => some (.v4 ip)
    | none => (parseUInt (2 ^ 128) t).map fun n => .v6 (BitVec.ofNat 128 n)
  parseV4_displayV4 := parseDotted_dotted
  parse_display ip := by
    cases ip with
    | v4 ip => simp only [parseDotted_dotted]
    | v6 ip =>
      have hnone : parseDotted (display ip.toNat) = none := by
        simp [parseDotted, splitOnce_eq_none (dot_not_mem_display _)]
      simp only [hnone, parseUInt_display ip.isLt, Option.map_some, BitVec.ofNat_toNat,
        BitVec.setWidth_eq]
  displayV4_ne_nil ip := by simp [dotted]
  display_ne_nil ip := by
    cases ip with
    | v4 ip => simp [dotted]
    | v6 ip => exact display_ne_nil _
  displayV4_chars ip c hc := dotted_chars hc
  display_chars ip c hc := by
    cases ip with
    | v4 ip => exact (dotted_chars hc).imp_right .inl
    | v6 ip => exact .inl (alphanumeric_of_digit (display_isDigit hc))
  displayV4_length := dotted_length
  display_length ip := by
    cases ip with
    | v4 ip => exact (dotted_length ip).trans (by decide)
    | v6 ip => exact length_display_le (by decide) (ip.isLt.trans (by decide))

/-- A Full Auto-Tune of a managed interface. -/
def managedRequest : OperationRequest where
  identity := {
    jobId := lit "0123456789abcdef0123456789abcdef", jobToken := replicate 64 'a',
    instance_ := lit "wan_sqm", operation := .fullAutotune, targetInterface := lit "pppoe-wan",
    routeFingerprint := replicate 64 'b', configFingerprint := replicate 64 'c',
    sqmFingerprint := replicate 64 'd' }
  createdUnixMs := 1785568000000
  deadlineUnixMs := 1785571600000
  origin := .luci
  backend := lit "speedtest-go"
  speedtestDirection := none
  speedtestServerId := none
  speedtestTopology := none
  route := {
    dnsServer := none, deviceIfindex := none, mode := .mwan3, mwan3Member := some (lit "wan"),
    l3Device := lit "pppoe-wan", sourceIp := some (.v4 ⟨192, 0, 2, 10⟩), fwmark := some 256,
    routingTable := some 1001, fwmarkMask := none }
  targetState := .existingManaged
  capturePolicy := none
  managedSqmSection := some (lit "wan_sqm")
  profile := some .variableLink
  strategy := some .fullRaw
  accessMedium := some .cellular
  accessSource := some .userSelected
  accessConfidencePercent := 100
  capacityLearningPolicy := some .scheduledActive
  serviceDlCapKbps := some 1000000
  serviceUlCapKbps := some 500000
  allowSqmDisable := true
  allowActiveTraffic := false
  scheduledAutoApplyRequested := false
  trafficBudget := .capped 4294967296
  trafficPolicyExplicit := false
  trafficPlan := none
  serverFailureRetries := some 3

theorem managedRequest_valid : managedRequest.validate addressText = .ok () := by
  decide +kernel

namespace OperationRequest

/-- **The request format is a faithful codec.**  A request is encoded exactly when it is valid;
every record decodes to its request; what is accepted is the record of a valid request under the
schema of its header; and only the schemas 4 and 5, and 23 and 24, write one request twice. -/
theorem request_codec_faithful (net : AddressText) :
    (∀ r : OperationRequest, (∃ s, r.encode net = .ok s) ↔ r.validate net = .ok ()) ∧
    (∀ (r : OperationRequest) (s : Text), r.encode net = .ok s → decode net s = .ok r) ∧
    (∀ (r : OperationRequest) (n : ℕ) (s : Text),
      r.encodeForSchema net n = .ok s → decode net s = .ok r) ∧
    (∀ (s : Text) (r : OperationRequest), decode net s = .ok r →
      r.validate net = .ok () ∧ ∃ n, (lines s).head? = some (retryRequestHeader n) ∧
        r.Represents n ∧ r.encodeForSchema net n = .ok s) ∧
    (∀ (s t : Text) (r : OperationRequest) (m n : ℕ), decode net s = .ok r → decode net t = .ok r →
      s ≠ t → (lines s).head? = some (retryRequestHeader m) →
      (lines t).head? = some (retryRequestHeader n) → SameRequests m n) := by
  refine ⟨fun r => ⟨?_, fun hv => ?_⟩, fun r s h => ?_, fun r n s h => ?_, fun s r h => ?_, ?_⟩
  · rintro ⟨s, hs⟩
    exact (encode_eq_ok.1 hs).1
  · exact ⟨_, encode_eq_ok.2 ⟨hv, rfl⟩⟩
  · obtain ⟨hv, rfl⟩ := encode_eq_ok.1 h
    exact decode_requestText hv (schema_represents (facts hv))
  · obtain ⟨hv, hrep, rfl⟩ := encodeForSchema_eq_ok.1 h
    exact decode_requestText hv hrep
  · obtain ⟨n, hhead, hencode⟩ := decode_eq_ok h
    obtain ⟨hv, hrep, -⟩ := encodeForSchema_eq_ok.1 hencode
    exact ⟨hv, n, hhead, hrep, hencode⟩
  · intro s t r m n hs ht hne hm hn
    obtain ⟨m', hm', hs'⟩ := decode_eq_ok hs
    obtain ⟨n', hn', ht'⟩ := decode_eq_ok ht
    obtain rfl : m = m' := retryRequestHeader_inj (Option.some.inj (hm.symm.trans hm'))
    obtain rfl : n = n' := retryRequestHeader_inj (Option.some.inj (hn.symm.trans hn'))
    obtain ⟨-, hrepm, hsm⟩ := encodeForSchema_eq_ok.1 hs'
    obtain ⟨-, hrepn, hsn⟩ := encodeForSchema_eq_ok.1 ht'
    rcases hrepm.unique hrepn with rfl | hsame
    · exact absurd (hsm.trans hsn.symm) hne
    · exact hsame

theorem managedRequest_reads_back : ∃ s, managedRequest.encode addressText = .ok s ∧
    decode addressText s = .ok managedRequest := by
  obtain ⟨hencode, hdecode, -⟩ := request_codec_faithful addressText
  obtain ⟨s, hs⟩ := (hencode managedRequest).2 managedRequest_valid
  exact ⟨s, hs, hdecode managedRequest s hs⟩

end OperationRequest

end CakeAutorate.Protocol
