/-
# Control messages

`ControlRequest` and `ControlMessage` of `operations/protocol.rs`: a control record,
followed by an operation record when the command is `start`.  The control record is
found by counting newlines; the operation record is written under one schema only, 4
or 23 for a managed request under the default traffic policy.
-/

import CakeAutorate.Protocol.RoundTrip

namespace CakeAutorate.Protocol

open Wire List OperationRequest

def maxControlMessageBytes : ℕ := maxOperationRecordBytes * 2

def controlHeader : Text := lit "cake-autorate-operation\t2\tcontrol"

/-- What a client asks of the daemon. -/
inductive ControlCommand where
  | ping
  | summary
  | start
  | status
  | result
  | cancel

namespace ControlCommand

def asStr : ControlCommand → String
  | .ping => "ping"
  | .summary => "summary"
  | .start => "start"
  | .status => "status"
  | .result => "result"
  | .cancel => "cancel"

def parse : Text → Option ControlCommand :=
  ofWord [("ping", .ping), ("summary", .summary), ("start", .start), ("status", .status),
    ("result", .result), ("cancel", .cancel)]

/-- The commands that are about a job. -/
def requiresJob : ControlCommand → Bool
  | .start | .status | .result | .cancel => true
  | .ping | .summary => false

theorem codec : WordCodec asStr parse := codec_words (by rintro ⟨⟩ <;> exact ⟨rfl, by decide⟩)

end ControlCommand

/-- A command, and the job it is about. -/
structure ControlRequest where
  requestId : Text
  command : ControlCommand
  jobId : Option Text
  jobToken : Option Text

namespace ControlRequest

variable (c : ControlRequest)

/-- `ControlRequest::validate`, the job. -/
def validateJob : Except String Unit := do
  if c.command.requiresJob then
    let jobId ← orError c.jobId "job command requires job_id"
    requireLowerHex "job_id" jobId 32
    let jobToken ← orError c.jobToken "job command requires job_token"
    requireLowerHex "job_token" jobToken 64
  else
    check (!(c.jobId.isSome || c.jobToken.isSome)) "daemon-level command must not carry job identity"

def validate : Except String Unit := do
  requireLowerHex "request_id" c.requestId 32
  c.validateJob

/-- The fields of the record. -/
def fields : List Field :=
  [("request_id", c.requestId), ("command", lit c.command.asStr), ("job_id", c.jobId.getD []),
   ("job_token", c.jobToken.getD [])]

def encode : Except String Text := do
  c.validate
  encodeRecord controlHeader c.fields

open RecordReader

/-- `ControlRequest::decode`, the fields. -/
def readFields : RecordReader ControlRequest := do
  let requestId ← field "request_id"
  let command ← orError (ControlCommand.parse (← field "command"))
    "unsupported calibration control command"
  let jobId := optionalString (← field "job_id")
  let jobToken := optionalString (← field "job_token")
  return { requestId, command, jobId, jobToken }

def decode (input : Text) : Except String ControlRequest := do
  let request ← readRecord input controlHeader readFields
  request.validate
  let canonical ← request.encode
  check (canonical == input) "control request is not canonically encoded"
  return request

end ControlRequest

/-- A control record, with the operation of a start. -/
structure ControlMessage where
  control : ControlRequest
  operation : Option OperationRequest

/-- `nth_newline_end`, counted in characters: where the text after `count` newlines starts. -/
def nthNewlineEnd : Text → ℕ → Option ℕ
  | [], _ => none
  | c :: rest, count =>
    if c = '\n' then
      if count = 1 then some 1 else (nthNewlineEnd rest (count - 1)).map (· + 1)
    else (nthNewlineEnd rest count).map (· + 1)

namespace ControlMessage

variable (net : AddressText) (m : ControlMessage)

def validate : Except String Unit := do
  m.control.validate
  match m.control.command, m.operation with
  | .start, some operation =>
    operation.validate net
    check (!(m.control.jobId != some operation.identity.jobId
      || m.control.jobToken != some operation.identity.jobToken))
      "start control identity does not match its operation request"
  | .start, none => throw "start control requires an operation request"
  | _, some _ => throw "only start control may carry an operation request"
  | _, none => pure ()

/-- `ControlMessage::encode`, the operation record. -/
def encodeOperation (operation : OperationRequest) : Except String Text :=
  if operation.trafficPolicyExplicit || operation.route.fwmarkMask.isSome then operation.encode net
  else match operation.targetState with
    | .existingManaged => operation.encodeForSchema net
      (if operation.serverFailureRetries.isSome then 4 + retrySchemaOffset else 4)
    | .absentBootstrap => operation.encode net

/-- `ControlMessage::encode`, the operation record if there is one. -/
def encodeOptional : Option OperationRequest → Except String Text
  | some operation => encodeOperation net operation
  | none => pure []

def encode : Except String Text := do
  m.validate net
  let control ← m.control.encode
  let operation ← encodeOptional net m.operation
  let encoded := control ++ operation
  check (byteLength encoded ≤ maxControlMessageBytes)
    "calibration control message exceeds its bound"
  return encoded

/-- `ControlMessage::decode`, whether the header of the operation record is the one that a
message has. -/
def wireMatchesTarget (operation : OperationRequest) (header : Text) : Except String Bool :=
  if operation.route.fwmarkMask.isSome then do
    let encoded ← operation.encode net
    return (lines encoded).head? == some header
  else
    let legacy := match operation.trafficPolicyExplicit, operation.targetState with
      | false, .existingManaged => 4
      | false, .absentBootstrap => 6
      | true, .existingManaged => if operation.trafficPlan.isSome then 9 else 7
      | true, .absentBootstrap => if operation.trafficPlan.isSome then 10 else 8
    if operation.serverFailureRetries.isSome then
      .ok (header == retryRequestHeader (legacy + retrySchemaOffset))
    else do
      return header == (← legacyRequestHeader legacy)

/-- `ControlMessage::decode`, the operation record. -/
def decodeOperation (record : Text) : Except String (Option OperationRequest) :=
  if record.isEmpty then .ok none else (decode net record).map some

/-- `ControlMessage::decode`, the last check. -/
def checkWire (operation : Option OperationRequest) (record : Text) : Except String Unit :=
  match operation with
  | none => pure ()
  | some operation => do
    let wireMatches ← wireMatchesTarget net operation ((lines record).head?.getD [])
    check wireMatches "calibration control operation schema does not match its target lifecycle"

def decode (input : Text) : Except String ControlMessage := do
  check (!(decide (byteLength input > maxControlMessageBytes) || input.getLast? != some '\n'))
    "calibration control message is not bounded and terminated"
  let controlEnd ← orError (nthNewlineEnd input 6) "calibration control message is truncated"
  let control ← ControlRequest.decode (input.take controlEnd)
  let operation ← decodeOperation net (input.drop controlEnd)
  let message : ControlMessage := { control, operation }
  message.validate net
  checkWire net operation (input.drop controlEnd)
  return message

end ControlMessage

namespace ControlRequest

variable {c : ControlRequest}

theorem lowerHex_ne_nil {n : ℕ} {value : Text} (hn : 0 < n) (h : lowerHex n value = true) :
    value ≠ [] := by
  rintro rfl
  simp only [lowerHex, byteLength_nil, Bool.and_eq_true, beq_iff_eq] at h
  omega

theorem facts (h : c.validate = .ok ()) : Short 32 c.requestId ∧
    (∀ t, c.jobId = some t → Short 64 t ∧ t ≠ []) ∧
    (∀ t, c.jobToken = some t → Short 64 t ∧ t ≠ []) := by
  simp only [validate, andThen_eq_ok, requireLowerHex, check_ok] at h
  obtain ⟨hid, hjob⟩ := h
  refine ⟨lowerHex_short hid, ?_⟩
  cases hrequires : c.command.requiresJob with
  | true =>
    simp only [validateJob, hrequires, if_true, orError_bind_ok, andThen_eq_ok,
      requireLowerHex, check_ok] at hjob
    obtain ⟨jobId, hjobId, hidhex, jobToken, hjobToken, htoken⟩ := hjob
    constructor
    · intro t ht
      obtain rfl : jobId = t := Option.some.inj (hjobId.symm.trans ht)
      exact ⟨(lowerHex_short hidhex).mono (by decide), lowerHex_ne_nil (by decide) hidhex⟩
    · intro t ht
      obtain rfl : jobToken = t := Option.some.inj (hjobToken.symm.trans ht)
      exact ⟨lowerHex_short htoken, lowerHex_ne_nil (by decide) htoken⟩
  | false =>
    simp only [validateJob, hrequires, Bool.false_eq_true, if_false, check_ok,
      Bool.not_eq_true', Bool.or_eq_false_iff] at hjob
    constructor
    · intro t ht
      simp [ht] at hjob
    · intro t ht
      simp [ht] at hjob

def text (c : ControlRequest) : Text := recordText controlHeader c.fields

theorem fits_fields (h : c.validate = .ok ()) : Fits 1000 c.fields := by
  obtain ⟨hid, hjob, htoken⟩ := facts h
  exact .mono (.cons hid.size <| .cons (ControlCommand.codec.short _).size
    <| .cons (getD_short hjob).size
    <| .cons (getD_short htoken).size .nil) (by decide)

theorem byteLength_text_le (h : c.validate = .ok ()) :
    byteLength c.text ≤ maxOperationRecordBytes := by
  have hheader : byteLength controlHeader ≤ 40 := by decide
  have htext : byteLength c.text ≤ byteLength controlHeader + 2 + 1000 :=
    byteLength_recordText_le (fits_fields h)
  unfold maxOperationRecordBytes
  omega

theorem encode_eq_ok {s : Text} : c.encode = .ok s ↔ c.validate = .ok () ∧ s = c.text := by
  rw [encode, andThen_eq_ok]
  refine and_congr_right fun h => ?_
  have hlen : byteLength (recordText controlHeader c.fields) ≤ maxOperationRecordBytes :=
    byteLength_text_le h
  simp only [encodeRecord, hlen, decide_true, check_true, bind, Except.bind, pure, Except.pure,
    Except.ok.injEq]
  exact eq_comm

theorem reads_fields (h : c.validate = .ok ()) : Reads readFields c.fields c := by
  obtain ⟨hid, hjob, htoken⟩ := facts h
  refine .field_bind (by decide) hid.writable ?_
  refine .field_bind (by decide) (ControlCommand.codec.short _).writable ?_
  refine .lift_bind (ControlCommand.codec.orError_eq _ _) ?_
  refine .field_bind (by decide) (getD_short hjob).writable ?_
  refine .field_bind (by decide) (getD_short htoken).writable ?_
  rw [optionalString_getD hjob, optionalString_getD htoken]
  exact .pure _

theorem decode_text (h : c.validate = .ok ()) : decode c.text = .ok c := by
  have hread : RecordReader.readRecord c.text controlHeader readFields = .ok c :=
    readRecord_recordText (by decide) (by decide) (byteLength_text_le h) (reads_fields h)
  have hencode : c.encode = .ok c.text := encode_eq_ok.2 ⟨h, rfl⟩
  simp only [decode, hread, h, hencode, bind, Except.bind, beq_self_eq_true, check_true]
  rfl

theorem decode_eq_ok {s : Text} (h : decode s = .ok c) : c.encode = .ok s := by
  simp only [decode, bind_ok] at h
  obtain ⟨q, -, _, -, canonical, hcanonical, _, hc, hq⟩ := h
  obtain rfl : q = c := Except.ok.inj hq
  obtain rfl : canonical = s := by simpa using check_ok.1 hc
  exact hcanonical

end ControlRequest

theorem nthNewlineEnd_line {line : Text} (rest : Text) (hn : '\n' ∉ line) (count : ℕ) :
    nthNewlineEnd (line ++ '\n' :: rest) count
      = if count = 1 then some (line.length + 1)
        else (nthNewlineEnd rest (count - 1)).map (· + (line.length + 1)) := by
  induction line with
  | nil => simp [nthNewlineEnd]
  | cons c line ih =>
    have hc : c ≠ '\n' := fun h => hn (by simp [h])
    have htail := ih fun h => hn (by simp [h])
    simp only [cons_append, nthNewlineEnd, hc, if_false, htail]
    split
    · rfl
    · simp only [Option.map_map, length_cons]
      congr 1

theorem nthNewlineEnd_lines (ls : List Text) (rest : Text) (hn : ∀ l ∈ ls, '\n' ∉ l)
    (hne : ls ≠ []) :
    nthNewlineEnd (ls.flatMap (fun l => l ++ ['\n']) ++ rest) ls.length
      = some (ls.flatMap fun l => l ++ ['\n']).length := by
  induction ls with
  | nil => exact absurd rfl hne
  | cons l ls ih =>
    have hl := hn l mem_cons_self
    simp only [flatMap_cons, append_assoc, cons_append, nil_append,
      nthNewlineEnd_line _ hl, length_cons, length_append]
    cases ls with
    | nil => simp
    | cons l' ls' =>
      have htail := ih (fun x hx => hn x (mem_cons_of_mem _ hx)) (by simp)
      rw [if_neg (by simp), Nat.add_sub_cancel, htail]
      simp only [Option.map_some, Option.some.injEq]
      omega

theorem nthNewlineEnd_text {c : ControlRequest} (h : c.validate = .ok ()) (rest : Text) :
    nthNewlineEnd (c.text ++ rest) 6 = some c.text.length := by
  have htext : c.text = (controlHeader :: (c.fields.map fieldLine ++ [[]])).flatMap
      fun l => l ++ ['\n'] := by
    simp [ControlRequest.text, recordText, bodyText]
  have hlines := nthNewlineEnd_lines (controlHeader :: (c.fields.map fieldLine ++ [[]])) rest
    (fun l hl => by
      simp only [mem_cons, mem_append, mem_map, not_mem_nil, or_false] at hl
      rcases hl with rfl | ⟨f, hf, rfl⟩ | rfl
      · decide
      · exact fieldLine_newline ((ControlRequest.reads_fields h).plain f hf).2.1
      · simp) (by simp)
  rw [← htext] at hlines
  exact hlines

namespace ControlMessage

open OperationRequest

variable {net : AddressText} {m : ControlMessage} {r : OperationRequest}

/-- The schema that `ControlMessage::encode` writes an operation in. -/
def wireSchema (r : OperationRequest) : ℕ :=
  if r.trafficPolicyExplicit || r.route.fwmarkMask.isSome then r.schema
  else match r.targetState with
    | .existingManaged => if r.serverFailureRetries.isSome then 4 + retrySchemaOffset else 4
    | .absentBootstrap => r.schema

theorem encodeOperation_eq (r : OperationRequest) :
    encodeOperation net r = r.encodeForSchema net (wireSchema r) := by
  unfold encodeOperation wireSchema
  split
  · rfl
  · cases r.targetState <;> rfl

theorem represents_public (f : r.Facts) (hexplicit : r.trafficPolicyExplicit = false)
    (hmask : r.route.fwmarkMask.isSome = false) (htarget : r.targetState = .existingManaged) :
    r.Represents (if r.serverFailureRetries.isSome then 4 + retrySchemaOffset else 4) := by
  have hlink : r.route.deviceIfindex.isSome = false :=
    Bool.eq_false_iff.2 fun h => by simp [f.mask_of_link h] at hmask
  have hdns : r.route.dnsServer.isSome = false :=
    Bool.eq_false_iff.2 fun h => by simp [f.link_of_dns h] at hlink
  have hplan : r.trafficPlan.isSome = false :=
    Bool.eq_false_iff.2 fun h => by simp [f.explicit_of_plan h] at hexplicit
  have hcapture : r.capturePolicy.isSome = false :=
    Bool.eq_false_iff.2 fun h => by simp [f.capture.1 h] at htarget
  cases hretries : r.serverFailureRetries.isSome with
  | false =>
    constructor <;> simp [hretries, hlink, hdns, hplan, hmask, hexplicit, htarget, hcapture,
      legacySchema, baseSchema, bootstrapSchema]
  | true =>
    constructor <;> simp [hretries, hlink, hdns, hplan, hmask, hexplicit, htarget, hcapture,
      legacySchema, baseSchema, bootstrapSchema, retrySchemaOffset]

theorem represents_wireSchema (f : r.Facts) : r.Represents (wireSchema r) := by
  unfold wireSchema
  split
  · exact schema_represents f
  · rename_i h
    simp only [Bool.or_eq_true, not_or, Bool.not_eq_true] at h
    cases ht : r.targetState with
    | existingManaged => exact represents_public f h.1 h.2 ht
    | absentBootstrap => exact schema_represents f

/-- The schema that `decode` expects of a request without a mark mask. -/
theorem wireSchema_unmasked (f : r.Facts) (hmask : r.route.fwmarkMask.isSome = false) :
    wireSchema r = (match r.trafficPolicyExplicit, r.targetState with
      | false, .existingManaged => 4
      | false, .absentBootstrap => 6
      | true, .existingManaged => if r.trafficPlan.isSome then 9 else 7
      | true, .absentBootstrap => if r.trafficPlan.isSome then 10 else 8)
      + if r.serverFailureRetries.isSome then retrySchemaOffset else 0 := by
  have hplan := f.explicit_of_plan
  unfold wireSchema schema encodeLegacySchema
  generalize r.trafficPlan.isSome = plan, r.serverFailureRetries.isSome = retries,
    r.trafficPolicyExplicit = explicit at hplan ⊢
  rw [hmask]
  cases explicit <;> cases r.targetState <;> cases plan <;> cases retries <;> simp at hplan ⊢

/-- **The second table agrees with the encoder**: a header passes exactly when it is that of
the schema the message is written with. -/
theorem wireMatchesTarget_eq (hv : r.validate net = .ok ()) (n : ℕ) :
    wireMatchesTarget net r (retryRequestHeader n) = .ok (decide (n = wireSchema r)) := by
  have f := facts hv
  have hheader : ∀ k, (retryRequestHeader n == retryRequestHeader k) = decide (n = k) := by
    intro k
    rw [Bool.eq_iff_iff, beq_iff_eq, decide_eq_true_eq]
    exact ⟨retryRequestHeader_inj, congrArg _⟩
  cases hmask : r.route.fwmarkMask.isSome with
  | true =>
    have hwire : wireSchema r = r.schema := by simp [wireSchema, hmask]
    have hencode : r.encode net = .ok (r.requestText net r.schema) := encode_eq_ok.2 ⟨hv, rfl⟩
    have hbeq : (some (retryRequestHeader r.schema) == some (retryRequestHeader n))
        = decide (n = r.schema) := by
      rw [← hheader, Bool.eq_iff_iff, beq_iff_eq, beq_iff_eq, Option.some.injEq]
      exact eq_comm
    simp only [wireMatchesTarget, hmask, if_true, hencode, bind, Except.bind, hwire,
      head_requestText f (schema_represents f), hbeq]
    rfl
  | false =>
    rw [wireSchema_unmasked f hmask]
    simp only [wireMatchesTarget, hmask, Bool.false_eq_true, if_false]
    cases hretries : r.serverFailureRetries.isSome with
    | true => simp only [if_true, hheader]
    | false =>
      have hlegacy : ∀ k, 4 ≤ k ∧ k ≤ 22 → (do
          return retryRequestHeader n == (← legacyRequestHeader k)) = .ok (decide (n = k)) := by
        intro k hk
        rw [legacyRequestHeader, if_pos hk, ← hheader k]
        rfl
      refine hlegacy _ ?_
      cases r.trafficPolicyExplicit <;> cases r.targetState <;> cases r.trafficPlan <;> simp

theorem validate_eq_ok (h : m.validate net = .ok ()) : m.control.validate = .ok () ∧
    ∀ r, m.operation = some r → r.validate net = .ok () := by
  simp only [validate, andThen_eq_ok] at h
  refine ⟨h.1, fun r hr => ?_⟩
  have hrest := h.2
  rw [hr] at hrest
  cases hc : m.control.command <;> rw [hc] at hrest <;>
    simp only [andThen_eq_ok, throw, throwThe, MonadExceptOf.throw, reduceCtorEq] at hrest
  exact hrest.1

def operationText (net : AddressText) : Option OperationRequest → Text
  | some r => r.requestText net (wireSchema r)
  | none => []

def text (net : AddressText) (m : ControlMessage) : Text :=
  m.control.text ++ operationText net m.operation

variable {operation : Option OperationRequest}

theorem encodeOptional_eq (h : ∀ r, operation = some r → r.validate net = .ok ()) :
    encodeOptional net operation = .ok (operationText net operation) := by
  cases operation with
  | none => rfl
  | some r =>
    have hv := h r rfl
    rw [encodeOptional, encodeOperation_eq]
    exact encodeForSchema_eq_ok.2 ⟨hv, represents_wireSchema (facts hv), rfl⟩

theorem byteLength_text_le (h : m.validate net = .ok ()) :
    byteLength (m.text net) ≤ maxControlMessageBytes := by
  obtain ⟨hcontrol, hoperation⟩ := validate_eq_ok h
  have hlen : byteLength (operationText net m.operation) ≤ maxOperationRecordBytes := by
    cases hop : m.operation with
    | none => exact Nat.zero_le _
    | some r =>
      have f := facts (hoperation r hop)
      exact byteLength_requestText_le f (represents_wireSchema f).supported.2
  have := ControlRequest.byteLength_text_le hcontrol
  rw [text, byteLength_append, maxControlMessageBytes]
  omega

theorem encode_eq_ok {s : Text} :
    m.encode net = .ok s ↔ m.validate net = .ok () ∧ s = m.text net := by
  rw [encode, andThen_eq_ok]
  refine and_congr_right fun h => ?_
  obtain ⟨hcontrol, hoperation⟩ := validate_eq_ok h
  have hlen : byteLength (m.control.text ++ operationText net m.operation)
      ≤ maxControlMessageBytes := byteLength_text_le h
  simp only [ControlRequest.encode_eq_ok.2 ⟨hcontrol, rfl⟩, encodeOptional_eq hoperation, hlen,
    decide_true, check_true, bind, Except.bind, pure, Except.pure, Except.ok.injEq]
  exact eq_comm

theorem getLast_text (m : ControlMessage) : (m.text net).getLast? = some '\n' := by
  have hcontrol : m.control.text.getLast? = some '\n' := getLast_recordText _ _
  cases hop : m.operation with
  | none => simpa [text, operationText, hop] using hcontrol
  | some r =>
    have hoperation : (r.requestText net (wireSchema r)).getLast? = some '\n' :=
      getLast_recordText _ _
    simp [text, operationText, hop, getLast?_append, hoperation]

theorem decodeOperation_text (h : ∀ r, operation = some r → r.validate net = .ok ()) :
    decodeOperation net (operationText net operation) = .ok operation ∧
      checkWire net operation (operationText net operation) = .ok () := by
  cases operation with
  | none => exact ⟨rfl, rfl⟩
  | some r =>
    have hv := h r rfl
    have hrep := represents_wireSchema (facts hv)
    have hempty : (r.requestText net (wireSchema r)).isEmpty = false := by
      simp [requestText, recordText]
    constructor
    · simp only [decodeOperation, operationText, hempty, Bool.false_eq_true, if_false,
        decode_requestText hv hrep]
      rfl
    · simp only [checkWire, operationText, head_requestText (facts hv) hrep, Option.getD_some,
        wireMatchesTarget_eq hv, decide_true, bind, Except.bind, check_true]

theorem decode_text (h : m.validate net = .ok ()) : decode net (m.text net) = .ok m := by
  obtain ⟨hcontrol, hoperation⟩ := validate_eq_ok h
  obtain ⟨hdecode, hwire⟩ := decodeOperation_text hoperation
  have hbound : decide (byteLength (m.text net) > maxControlMessageBytes) = false := by
    simpa using byteLength_text_le h
  have hend : nthNewlineEnd (m.text net) 6 = some m.control.text.length :=
    nthNewlineEnd_text hcontrol _
  have htake : (m.text net).take m.control.text.length = m.control.text := by simp [text]
  have hdrop : (m.text net).drop m.control.text.length = operationText net m.operation := by
    simp [text]
  simp only [decode, hbound, getLast_text, bne_self_eq_false, Bool.or_self, Bool.not_false,
    check_true, hend, orError, htake, hdrop, ControlRequest.decode_text hcontrol, hdecode, h, hwire,
    bind, Except.bind]
  rfl

theorem encodeOptional_of_decode {record : Text}
    (hdecode : decodeOperation net record = .ok operation)
    (hwire : checkWire net operation record = .ok ()) :
    encodeOptional net operation = .ok record := by
  unfold decodeOperation at hdecode
  split at hdecode
  · rename_i hempty
    obtain rfl : none = operation := Except.ok.inj hdecode
    rw [List.isEmpty_iff.1 hempty]
    rfl
  · cases hr : OperationRequest.decode net record with
    | error e => rw [hr] at hdecode; cases hdecode
    | ok r =>
      rw [hr] at hdecode
      obtain rfl : some r = operation := Except.ok.inj hdecode
      obtain ⟨n, hhead, hencode⟩ := decode_eq_ok hr
      have hv := (encodeForSchema_eq_ok.1 hencode).1
      simp only [checkWire, hhead, Option.getD_some, wireMatchesTarget_eq hv, bind, Except.bind,
        check_ok, decide_eq_true_eq] at hwire
      rw [encodeOptional, encodeOperation_eq, ← hwire]
      exact hencode

theorem accepted {s : Text} (h : decode net s = .ok m) : m.validate net = .ok () ∧
    ∃ control operation, m.control.encode = .ok control ∧
      encodeOptional net m.operation = .ok operation ∧ s = control ++ operation := by
  simp only [decode, bind_ok] at h
  obtain ⟨_, -, k, -, control, hcontrol, operation, hoperation, _, hv, _, hwire, hm⟩ := h
  cases hm
  exact ⟨hv, _, _, ControlRequest.decode_eq_ok hcontrol,
    encodeOptional_of_decode hoperation hwire, (take_append_drop k s).symm⟩

theorem encode_of_decode {s : Text} (h : decode net s = .ok m) : m.encode net = .ok s := by
  obtain ⟨hv, control, operation, hcontrol, hoperation, rfl⟩ := accepted h
  obtain ⟨-, rfl⟩ := ControlRequest.encode_eq_ok.1 hcontrol
  rw [encodeOptional_eq (validate_eq_ok hv).2, Except.ok.injEq] at hoperation
  rw [← hoperation]
  exact encode_eq_ok.2 ⟨hv, rfl⟩

theorem wireSchema_public (hexplicit : r.trafficPolicyExplicit = false)
    (hmask : r.route.fwmarkMask = none) (htarget : r.targetState = .existingManaged) :
    wireSchema r = 4 ∨ wireSchema r = 23 := by
  unfold wireSchema
  rw [hexplicit, hmask, htarget]
  cases r.serverFailureRetries with
  | none => exact .inl rfl
  | some _ => exact .inr rfl

theorem wireSchema_masked (f : r.Facts) (hmask : r.route.fwmarkMask.isSome = true) :
    legacySchema (wireSchema r) ≥ 11 := by
  have := (represents_wireSchema f).mask
  rw [hmask] at this
  exact of_decide_eq_true this.symm

/-- **The control wire is a bijection** between valid messages and accepted texts.  A managed
operation under the default traffic policy is accepted only in schema 4 or 23, and with a mark mask
only in a schema that writes it. -/
theorem control_wire_bijection (net : AddressText) :
    (∀ m : ControlMessage, m.validate net = .ok () →
      ∃ s, m.encode net = .ok s ∧ decode net s = .ok m) ∧
    (∀ (s : Text) (m : ControlMessage), decode net s = .ok m → m.encode net = .ok s) ∧
    (∀ (s : Text) (m : ControlMessage), decode net s = .ok m →
      ∃ control operation, m.control.encode = .ok control ∧
        encodeOptional net m.operation = .ok operation ∧ s = control ++ operation) ∧
    (∀ (s : Text) (m : ControlMessage) (r : OperationRequest), decode net s = .ok m →
      m.operation = some r → ∃ control operation n, m.control.encode = .ok control ∧
        r.encodeForSchema net n = .ok operation ∧ s = control ++ operation ∧
        (lines operation).head? = some (retryRequestHeader n) ∧
        (r.targetState = .existingManaged → r.trafficPolicyExplicit = false →
          (r.route.fwmarkMask = none → n = 4 ∨ n = 23) ∧
          (r.route.fwmarkMask ≠ none → legacySchema n ≥ 11) ∧ n ≠ 5 ∧ n ≠ 24)) := by
  refine ⟨fun m h => ?_, fun s m h => encode_of_decode h, fun s m h => (accepted h).2, ?_⟩
  · exact ⟨_, encode_eq_ok.2 ⟨h, rfl⟩, decode_text h⟩
  · intro s m r h hr
    obtain ⟨hv, control, operation, hcontrol, hoperation, hs⟩ := accepted h
    have hvr := (validate_eq_ok hv).2 r hr
    rw [hr, encodeOptional, encodeOperation_eq] at hoperation
    obtain ⟨-, hrep, htext⟩ := encodeForSchema_eq_ok.1 hoperation
    refine ⟨control, operation, wireSchema r, hcontrol, hoperation, hs, ?_, fun ht he => ?_⟩
    · rw [htext]
      exact head_requestText (facts hvr) hrep
    · have hmasked : r.route.fwmarkMask ≠ none → legacySchema (wireSchema r) ≥ 11 := fun hne =>
        wireSchema_masked (facts hvr) (Option.isSome_iff_ne_none.2 hne)
      have hpublic : r.route.fwmarkMask = none → wireSchema r = 4 ∨ wireSchema r = 23 := fun hnone =>
        wireSchema_public he hnone ht
      refine ⟨hpublic, hmasked, ?_⟩
      by_cases hnone : r.route.fwmarkMask = none
      · have := hpublic hnone
        omega
      · have := hmasked hnone
        unfold legacySchema retrySchemaOffset at this
        split at this <;> omega

/-- The start of an operation. -/
def startMessage (r : OperationRequest) : ControlMessage where
  control := {
    requestId := lit "ffeeddccbbaa99887766554433221100", command := .start,
    jobId := some r.identity.jobId, jobToken := some r.identity.jobToken }
  operation := some r

theorem startMessage_valid : (startMessage managedRequest).validate addressText = .ok () := by
  decide +kernel

theorem startMessage_reads_back : ∃ s, (startMessage managedRequest).encode addressText = .ok s ∧
    decode addressText s = .ok (startMessage managedRequest) :=
  (control_wire_bijection addressText).1 _ startMessage_valid

/-- A request whose mark has a mask, without retries. -/
def maskedRequest : OperationRequest :=
  { managedRequest with
    route := { managedRequest.route with fwmarkMask := some 0x3f00 }
    serverFailureRetries := none }

theorem maskedStart_valid : (startMessage maskedRequest).validate addressText = .ok () := by
  decide +kernel

theorem maskedStart_accepted : maskedRequest.targetState = .existingManaged ∧
    maskedRequest.trafficPolicyExplicit = false ∧ ∃ control operation,
      (startMessage maskedRequest).control.encode = .ok control ∧
      decode addressText (control ++ operation) = .ok (startMessage maskedRequest) ∧
      (lines operation).head? = some (lit "cake-autorate-operation\t11\trequest") := by
  have hv := maskedStart_valid
  obtain ⟨hcontrol, hoperation⟩ := validate_eq_ok hv
  have hvr := hoperation maskedRequest rfl
  have hschema : wireSchema maskedRequest = 11 := by decide +kernel
  refine ⟨rfl, rfl, _, operationText addressText (some maskedRequest),
    ControlRequest.encode_eq_ok.2 ⟨hcontrol, rfl⟩, decode_text hv, ?_⟩
  rw [operationText, head_requestText (facts hvr) (represents_wireSchema (facts hvr)), hschema]
  decide +kernel

end ControlMessage

end CakeAutorate.Protocol
