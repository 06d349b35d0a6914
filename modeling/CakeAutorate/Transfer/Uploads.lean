/-
# Uploads

Any number of clients call the store in any order; a run is a list of calls.  A client that uploads
a body keeps an offset: it sends the next bytes from there, takes the offset that it is answered,
and after a failure or a lost answer sends again from where it was, or from any earlier offset.
-/

import CakeAutorate.Machine.Run
import CakeAutorate.Transfer.Calls

namespace CakeAutorate.Transfer

open Syscall Machine List Json Sha256

/-- A call by some client. -/
structure Event where
  call : Call
  method : String
  request : Json

def leftBy : EStateM.Result String Dir Json → Dir
  | .ok _ after => after
  | .error _ after => after

def step (validateBytes : Bytes → Json) (d : Dir) (e : Event) : Dir :=
  leftBy (dispatch validateBytes e.call e.method e.request d)

section

variable (validateBytes : Bytes → Json)

theorem step_leaves {d : Dir} (h : Sound d) (e : Event) :
    Leaves e.call d (MadeBy e.call d e.method e.request) (EndedBy e.method e.request)
      (step validateBytes d e) := by
  have hends := dispatch_ends validateBytes e.call h e.method e.request
  unfold step
  cases hresult : dispatch validateBytes e.call e.method e.request d with
  | ok answer after => exact hends.of_ok hresult
  | error code after => exact hends.of_error hresult

theorem run_sound (events : List Event) : Sound (run (step validateBytes) [] events) :=
  run_invariant (P := Sound) (fun _ e h => (step_leaves validateBytes h e).sound) Sound.nil events

theorem run_whole {events : List Event} (h : ∀ e ∈ events, ¬ e.call.Cut) :
    Whole (run (step validateBytes) [] events) := by
  induction events using reverseRecOn with
  | nil => intro e he; cases he
  | append_singleton events e ih =>
    rw [run_append]
    refine (step_leaves validateBytes (run_sound validateBytes events) e).whole (h e (by simp))
      (ih fun e' he' => h e' ?_)
    simp [he']

variable {validateBytes}

/-- The begin that a transfer comes from. -/
structure BegunBy (e : Event) (r : Record) : Prop where
  method : e.method = "begin"
  request : requestIdOf e.request = some r.requestId
  length_eq : (e.request.get "length").asU64 = some r.length
  digest_eq : (e.request.get "sha256").asStr = some r.digest.1

/-- **Every transfer was begun**, with its length and digest. -/
theorem run_begun {events : List Event} {t : Stored}
    (ht : t ∈ transfers (run (step validateBytes) [] events)) : ∃ e ∈ events, BegunBy e t.record := by
  induction events using reverseRecOn generalizing t with
  | nil => cases ht
  | append_singleton events e ih =>
    rw [run_append] at ht
    rcases (step_leaves validateBytes (run_sound validateBytes events) e).origin t ht with
      hold | ⟨requestId, hrequest, hmade⟩
    · obtain ⟨e', he', hbegun⟩ := ih hold
      exact ⟨e', by simp [he'], hbegun⟩
    · cases hmade with
      | begun length digest hmethod hlength hdigest hbegun =>
        refine ⟨e, by simp, hmethod, ?_, ?_, ?_⟩
        · rw [hbegun.request]; exact hrequest
        · rw [hbegun.length_eq]; exact hlength
        · rw [hbegun.digest_eq]; exact hdigest
      | grown token offset hex bytes hmethod htoken hoffset hdata hdecode hgrown =>
        obtain ⟨u, hu, -, -, hrecord, -⟩ := hgrown.of
        obtain ⟨e', he', hbegun⟩ := ih hu
        exact ⟨e', by simp [he'], by rw [hrecord]; exact hbegun⟩

def OnlyGrows (e : Event) (before after : Bytes) : Prop :=
  before <+: after ∧ (after = before ∨ e.method = "append" ∧ ∃ offset hex bytes stored,
    (e.request.get "offset").asU64 = some offset ∧ (e.request.get "data").asStr = some hex ∧
    decodeChunk hex = some bytes ∧ offset ≤ before.length ∧
    after = before.take offset ++ bytes.take stored)

/-- **Stored bytes never change**: the body of a transfer only grows. -/
theorem step_grows {d : Dir} (h : Sound d) (e : Event) {t t' : Stored} (ht : t ∈ transfers d)
    (ht' : t' ∈ transfers (step validateBytes d e)) (hrecord : t'.record = t.record) :
    OnlyGrows e t.body t'.body := by
  have hleaves := step_leaves validateBytes h e
  rcases hleaves.origin t' ht' with hold | ⟨requestId, -, hmade⟩
  · have heq : t' = t := h.token_unique hold ht (by rw [hrecord])
    rw [heq]
    exact ⟨prefix_refl _, .inl rfl⟩
  cases hmade with
  | begun length digest hmethod hlength hdigest hbegun =>
    -- a record of this very second is live, so its transfer is still there
    have hlive : t.record.live e.call.now = true := by
      rw [← hrecord, Record.live, hbegun.created]
      simp [TTL_S]
    rcases hleaves.keeps t ht hlive with hended | ⟨t₁, ht₁, hrecord₁, hbegins⟩
    · rcases hended.2 with hfinish | hcancel
      · rw [hmethod] at hfinish; exact absurd hfinish (by decide)
      · rw [hmethod] at hcancel; exact absurd hcancel (by decide)
    · have heq : t₁ = t' :=
        hleaves.sound.token_unique ht₁ ht' (by rw [hrecord₁, hrecord])
      rw [heq, hbegun.body, prefix_nil] at hbegins
      rw [hbegins, hbegun.body]
      exact ⟨prefix_refl _, .inl rfl⟩
  | grown token offset hex bytes hmethod htoken hoffset hdata hdecode hgrown =>
    obtain ⟨u, hu, -, -, hrecord', hbegins, hle, stored, hbody⟩ := hgrown.of
    have heq : u = t := h.token_unique hu ht (by rw [← hrecord', hrecord])
    rw [heq] at hbegins hle hbody
    exact ⟨hbegins, .inr ⟨hmethod, offset, hex, bytes, stored, hoffset, hdata, hdecode, hle, hbody⟩⟩

end

variable (fields : List (String × Json))

theorem get_insert_self (key : String) (v : Json) : ((obj fields).insert key v).get key = v := by
  simp only [Json.insert]
  split
  · rename_i hany
    have hfind : (fields.map fun f => if f.1 = key then (key, v) else f).find?
        (fun f => f.1 = key) = some (key, v) := by
      induction fields with
      | nil => simp at hany
      | cons f rest ih =>
        by_cases hf : f.1 = key
        · simp [hf]
        · simp only [any_cons, hf, decide_false, Bool.false_or] at hany
          simp [hf, ih hany]
    simp [Json.get, hfind]
  · rename_i hnone
    have hfind : fields.find? (fun f => f.1 = key) = none := by
      rw [find?_eq_none]
      intro f hf hkey
      exact hnone (any_eq_true.2 ⟨f, hf, hkey⟩)
    simp [Json.get, find?_append, hfind]

theorem get_insert_ne {key other : String} (h : other ≠ key) (v : Json) :
    ((obj fields).insert key v).get other = (obj fields).get other := by
  have hkey : ¬ key = other := fun heq => h heq.symm
  have hfind : (fields.map fun f => if f.1 = key then (key, v) else f).find?
      (fun f => f.1 = other) = fields.find? (fun f => f.1 = other) := by
    induction fields with
    | nil => rfl
    | cons f rest ih =>
      rw [map_cons, find?_cons, find?_cons, ih]
      by_cases hf : f.1 = key
      · simp [hf, hkey]
      · simp [hf]
  simp only [Json.insert]
  split
  · simp [Json.get, hfind]
  · simp [Json.get, find?_append, hkey]

/-- **A receipt names its request.** -/
theorem receipt_request (requestId : Identity) (digest : Digest) (result : Json) :
    ((receipt requestId digest result).get "request_id").asStr = some requestId.1 := by
  unfold receipt
  split
  · rename_i hcase
    cases result with
    | obj fields =>
      obtain ⟨fields', hfields⟩ : ∃ fields',
          (obj fields).insert "request_id" (.str requestId.1) = .obj fields' := by
        simp only [Json.insert]
        split
        · exact ⟨_, rfl⟩
        · exact ⟨_, rfl⟩
      rw [hfields, get_insert_ne _ (by decide), ← hfields, get_insert_self]
      rfl
    | null => simp [Json.get, Json.asBool] at hcase
    | bool b => simp [Json.get, Json.asBool] at hcase
    | num n => simp [Json.get, Json.asBool] at hcase
    | str s => simp [Json.get, Json.asBool] at hcase
    | arr items => simp [Json.get, Json.asBool] at hcase
  · split
    · rfl
    · rename_i hsame
      exact not_not.1 hsame

theorem fromStrRadix_hexText (b : UInt8) :
    fromStrRadix (digit (b.toNat / 16)) (digit b.toNat) = some b := by
  have hall : ∀ n < 256, fromStrRadix (digit (n / 16)) (digit n) =
      some (UInt8.ofNat n) := by decide +kernel
  rw [hall b.toNat b.toNat_lt, UInt8.ofNat_toNat]

theorem decodePairs_hexText (bytes : Bytes) : decodePairs (hexText bytes) = some bytes := by
  induction bytes with
  | nil => rfl
  | cons b rest ih =>
    have hcons : hexText (b :: rest) = digit (b.toNat / 16) :: digit b.toNat :: hexText rest := rfl
    rw [hcons, decodePairs, fromStrRadix_hexText, ih]
    rfl

theorem decodeChunk_hexText {bytes : Bytes} (hne : bytes ≠ []) (hlength : bytes.length ≤ CHUNK_BYTES) :
    decodeChunk (hexText bytes) = some bytes := by
  have hpos := length_pos_iff.2 hne
  have hlen := hexText_length bytes
  have hascii : (hexText bytes).any (fun b => 0x80 ≤ b) = false := by
    rw [any_eq_false]
    intro b hb
    have hdigit := all_eq_true.1 (hexText_hex bytes) b hb
    simp only [hexDigit, Bool.or_eq_true, Bool.and_eq_true, decide_eq_true_eq, UInt8.le_iff_toNat_le]
      at hdigit ⊢
    simp only [UInt8.reduceToNat] at hdigit ⊢
    omega
  have hempty : (hexText bytes).isEmpty = false := by
    rw [isEmpty_eq_false_iff, ← length_pos_iff]
    omega
  have hlong : ¬ CHUNK_BYTES * 2 < (hexText bytes).length := by omega
  have heven : (hexText bytes).length % 2 = 0 := by omega
  unfold decodeChunk
  simp [hempty, hlong, heven, hascii, decodePairs_hexText]

/-- What a client uploads: the record that its begin made and the body. -/
structure Upload where
  record : Record
  body : Bytes
  length_eq : body.length = record.length

/-- What happens while a client uploads. -/
inductive Turn where
  | other (e : Event)
  /-- The client sends so many bytes from its offset; it may not hear the answer. -/
  | send (c : Call) (n : ℕ) (heard : Bool)
  /-- The client starts again from an earlier offset. -/
  | restart (offset : ℕ)

namespace Upload

variable (u : Upload)

def chunk (offset n : ℕ) : Bytes := (u.body.drop offset).take n

def chunkRequest (offset n : ℕ) : Json :=
  .obj [("request_id", .str u.record.requestId.1), ("token", .str u.record.token.1),
    ("offset", .num offset), ("data", .str (hexText (u.chunk offset n)))]

def next (offset : ℕ) (heard : Bool) : EStateM.Result String Dir Json → ℕ
  | .ok answer _ =>
    if heard then ((answer.get "result").get "next_offset").asU64.getD offset else offset
  | .error _ _ => offset

def turn (validateBytes : Bytes → Json) (s : Dir × ℕ) : Turn → Dir × ℕ
  | .other e => (step validateBytes s.1 e, s.2)
  | .send c n heard =>
    if s.2 < u.body.length then
      (step validateBytes s.1 ⟨c, "append", u.chunkRequest s.2 n⟩,
        next s.2 heard (dispatch validateBytes c "append" (u.chunkRequest s.2 n) s.1))
    else s
  | .restart offset => (s.1, min s.2 offset)

def Friendly (e : Event) : Prop :=
  requestIdOf e.request = some u.record.requestId → e.method = "begin" ∨ e.method = "append" ∧
    ∀ offset hex bytes, (e.request.get "offset").asU64 = some offset →
      (e.request.get "data").asStr = some hex → decodeChunk hex = some bytes →
      bytes <+: u.body.drop offset

/-- The transfer is live, no header is cut off, and nobody ends the transfer or sends other
bytes for it. -/
def Fair : Turn → Prop
  | .other e => u.record.live e.call.now = true ∧ ¬ e.call.Cut ∧ u.Friendly e
  | .send c n _ => u.record.live c.now = true ∧ ¬ c.Cut ∧ 0 < n ∧ n ≤ CHUNK_BYTES
  | .restart _ => True

/-- The directory holds the start of the body, up to the client's offset at least. -/
structure Holds (s : Dir × ℕ) : Prop where
  sound : Sound s.1
  whole : Whole s.1
  stored : ∃ t ∈ transfers s.1, t.record = u.record ∧ t.body <+: u.body ∧ s.2 ≤ t.body.length

end Upload

def Turn.delivered : Turn → Bool
  | .send c _ heard => c.fault == .none && heard
  | _ => false

def Turn.goesOn : Turn → Bool
  | .restart _ => false
  | _ => true

namespace Upload

variable {u : Upload} {s : Dir × ℕ} (validateBytes : Bytes → Json)

theorem prefix_of_true {stored bytes body : Bytes} {offset : ℕ} (hstored : stored <+: body)
    (hoffset : offset ≤ stored.length) (htrue : bytes <+: body.drop offset) (k : ℕ) :
    stored.take offset ++ bytes.take k <+: body := by
  obtain ⟨rest, hrest⟩ := (List.take_prefix k bytes).trans htrue
  refine ⟨rest, ?_⟩
  rw [append_assoc, hrest, take_of_begins hstored hoffset, take_append_drop]

theorem Holds.call (h : u.Holds s) {e : Event} (hlive : u.record.live e.call.now = true)
    (huncut : ¬ e.call.Cut) (hfriendly : u.Friendly e) :
    u.Holds (step validateBytes s.1 e, s.2) := by
  obtain ⟨t, ht, hrecord, hbody, hoffset⟩ := h.stored
  have hleaves := step_leaves validateBytes h.sound e
  refine ⟨hleaves.sound, hleaves.whole huncut h.whole, ?_⟩
  rw [← hrecord] at hlive
  rcases hleaves.keeps t ht hlive with ⟨hrequest, hended⟩ | ⟨t', ht', hrecord', hbegins⟩
  · rw [hrecord] at hrequest
    rcases hfriendly hrequest with hbegin | ⟨happend, -⟩
    · rw [hbegin] at hended
      exact absurd hended (by decide)
    · rw [happend] at hended
      exact absurd hended (by decide)
  refine ⟨t', ht', hrecord'.trans hrecord, ?_, hoffset.trans hbegins.length_le⟩
  rcases hleaves.origin t' ht' with hold | ⟨requestId, hrequest, hmade⟩
  · rw [h.sound.token_unique hold ht (by rw [hrecord'])]
    exact hbody
  cases hmade with
  | begun length digest hmethod hlength hdigest hbegun =>
    rw [hbegun.body]
    exact nil_prefix
  | grown token offset hex bytes hmethod htoken hoff hdata hdecode hgrown =>
    obtain ⟨t₁, ht₁, -, hid, hrecord₁, -, hle, stored, hnew⟩ := hgrown.of
    have heq : t₁ = t := h.sound.token_unique ht₁ ht (by rw [← hrecord₁, hrecord'])
    rw [heq] at hid hle hnew
    rw [← hid, hrecord] at hrequest
    rcases hfriendly hrequest with hbegin | ⟨-, htrue⟩
    · rw [hmethod] at hbegin
      exact absurd hbegin (by decide)
    · rw [hnew]
      exact prefix_of_true hbody hle (htrue offset hex bytes hoff hdata hdecode) stored

theorem chunkRequest_fields (offset n : ℕ) :
    AppendRequest (u.chunkRequest offset n) u.record offset (hexText (u.chunk offset n)) := by
  refine ⟨?_, rfl, ?_, rfl⟩
  · show Identity.of? u.record.requestId.1 = some u.record.requestId
    rw [Identity.of?_eq_some]
  · show asU64 (.num offset) = some offset
    rw [asU64_num]

theorem decodeChunk_chunk {offset n : ℕ} (hoffset : offset < u.body.length) (hn : 0 < n)
    (hchunk : n ≤ CHUNK_BYTES) :
    decodeChunk (hexText (u.chunk offset n)) = some (u.chunk offset n) := by
  refine decodeChunk_hexText ?_ ?_
  · rw [← length_pos_iff, chunk, length_take, length_drop]
    omega
  · rw [chunk, length_take]
    omega

theorem friendly_send {offset n : ℕ} (c : Call) (hoffset : offset < u.body.length) (hn : 0 < n)
    (hchunk : n ≤ CHUNK_BYTES) : u.Friendly ⟨c, "append", u.chunkRequest offset n⟩ := by
  intro _
  refine .inr ⟨rfl, fun offset' hex bytes hoff hdata hdecode => ?_⟩
  have hfields := u.chunkRequest_fields offset n
  obtain rfl : offset = offset' := Option.some.inj (hfields.offset_eq.symm.trans hoff)
  obtain rfl : hexText (u.chunk offset n) = hex := Option.some.inj (hfields.data.symm.trans hdata)
  obtain rfl : u.chunk offset n = bytes :=
    Option.some.inj ((decodeChunk_chunk hoffset hn hchunk).symm.trans hdecode)
  exact take_prefix _ _

theorem next_nextOffset (offset : ℕ) (requestId : Identity) (n : ℕ) (after : Dir) :
    next offset true (.ok (nextOffset requestId n) after) = n := by
  simp [next, nextOffset, accepted, Json.get]

section

variable (h : u.Holds s)
include h

theorem Holds.send {c : Call} {n : ℕ} (heard : Bool) (hlive : u.record.live c.now = true)
    (huncut : ¬ c.Cut) (hn : 0 < n) (hchunk : n ≤ CHUNK_BYTES) :
    u.Holds (u.turn validateBytes s (.send c n heard)) ∧
      s.2 ≤ (u.turn validateBytes s (.send c n heard)).2 ∧
      (c.fault = .none → heard = true →
        min u.body.length (s.2 + 1) ≤ (u.turn validateBytes s (.send c n heard)).2) := by
  by_cases hmore : s.2 < u.body.length
  case neg =>
    rw [turn, if_neg hmore]
    exact ⟨h, le_rfl, fun _ _ => by omega⟩
  rw [turn, if_pos hmore]
  have hcall := h.call validateBytes (e := ⟨c, "append", u.chunkRequest s.2 n⟩)
    hlive huncut (friendly_send c hmore hn hchunk)
  obtain ⟨t, ht, hrecord, hbody, hoffset⟩ := h.stored
  have hfields := u.chunkRequest_fields s.2 n
  have hlen : 0 < (u.chunk s.2 n).length := by
    rw [chunk, length_take, length_drop]
    omega
  obtain ⟨t', ht', hrecord', hbody', hoffset'⟩ := hcall.stored
  have hsent : s.2 ≤ next s.2 heard (dispatch validateBytes c "append" (u.chunkRequest s.2 n) s.1) ∧
      next s.2 heard (dispatch validateBytes c "append" (u.chunkRequest s.2 n) s.1) ≤
        t'.body.length := by
    have hends := dispatch_append_ends validateBytes c h.sound (u.chunkRequest s.2 n)
    simp only [step] at ht'
    cases hresult : dispatch validateBytes c "append" (u.chunkRequest s.2 n) s.1 with
    | error code after => exact ⟨le_rfl, hoffset'⟩
    | ok answer after =>
      cases heard with
      | false => exact ⟨le_rfl, hoffset'⟩
      | true =>
        rw [hresult] at ht'
        obtain ⟨requestId, token, offset, hex, bytes, data, hid, htoken, hoff, -, -, rfl, hanswer⟩ :=
          hends.of_ok hresult
        obtain ⟨t₁, ht₁, htoken₁, -, rfl, t₂, ht₂, hrecord₂, hlength₂⟩ := hanswer.of
        obtain rfl : u.record.token.1 = token := Option.some.inj (hfields.token.symm.trans htoken)
        obtain rfl : s.2 = offset := Option.some.inj (hfields.offset_eq.symm.trans hoff)
        have heq₁ : t₁ = t :=
          h.sound.token_unique ht₁ ht (Subtype.ext (by rw [htoken₁, hrecord]))
        have heq₂ : t₂ = t' := by
          refine Sound.token_unique ?_ ht₂ ht' (by rw [hrecord₂, heq₁, hrecord, hrecord'])
          have hsound := hcall.sound
          simp only [step, hresult] at hsound
          exact hsound
        rw [heq₁] at hlength₂ ⊢
        rw [heq₂] at hlength₂
        have hnext := next_nextOffset s.2 requestId (max t.body.length (s.2 + bytes.length)) after
        unfold nextOffset at hnext
        rw [hnext, hlength₂]
        constructor
        · omega
        · exact le_rfl
  refine ⟨⟨hcall.sound, hcall.whole, t', ht', hrecord', hbody', hsent.2⟩, hsent.1, ?_⟩
  rintro hfault rfl
  rw [← hrecord] at hlive hfields
  obtain ⟨after, haccepted, -⟩ := dispatch_append_accepted validateBytes h.sound h.whole hfault ht hlive
    hbody (by rw [hrecord]; exact u.length_eq) hfields (decodeChunk_chunk hmore hn hchunk) hoffset
    (List.take_prefix _ _)
  rw [haccepted, next_nextOffset]
  omega

theorem Holds.turn {a : Turn} (hfair : u.Fair a) : u.Holds (u.turn validateBytes s a) := by
  cases a with
  | other e => exact h.call validateBytes hfair.1 hfair.2.1 hfair.2.2
  | send c n heard => exact (h.send validateBytes heard hfair.1 hfair.2.1 hfair.2.2.1 hfair.2.2.2).1
  | restart offset =>
    obtain ⟨t, ht, hrecord, hbody, hoffset⟩ := h.stored
    exact ⟨h.sound, h.whole, t, ht, hrecord, hbody, (Nat.min_le_left _ _).trans hoffset⟩

variable {turns : List Turn}

theorem Holds.run (hfair : ∀ a ∈ turns, u.Fair a) :
    u.Holds (run (u.turn validateBytes) s turns) := by
  induction turns generalizing s with
  | nil => exact h
  | cons a turns ih =>
    exact ih (h.turn validateBytes (hfair a (by simp))) fun b hb => hfair b (by simp [hb])

theorem Holds.progress {a : Turn} (hfair : u.Fair a) (hon : a.goesOn = true) :
    s.2 ≤ (u.turn validateBytes s a).2 ∧
      (a.delivered = true → min u.body.length (s.2 + 1) ≤ (u.turn validateBytes s a).2) := by
  cases a with
  | other e => exact ⟨le_rfl, nofun⟩
  | send c n heard =>
    obtain ⟨-, hle, hmore⟩ := h.send validateBytes heard hfair.1 hfair.2.1 hfair.2.2.1 hfair.2.2.2
    refine ⟨hle, fun hdelivered => ?_⟩
    simp only [Turn.delivered, Bool.and_eq_true, beq_iff_eq] at hdelivered
    exact hmore hdelivered.1 hdelivered.2
  | restart offset => cases hon

theorem Holds.run_progress (hfair : ∀ a ∈ turns, u.Fair a) (hon : ∀ a ∈ turns, a.goesOn = true) :
    min u.body.length (s.2 + turns.countP Turn.delivered) ≤
      (Machine.run (u.turn validateBytes) s turns).2 := by
  induction turns generalizing s with
  | nil => exact Nat.min_le_right _ _
  | cons a turns ih =>
    have ha := hfair a (by simp)
    obtain ⟨hle, hmore⟩ := h.progress validateBytes ha (hon a (by simp))
    have hrest := ih (h.turn validateBytes ha) (fun b hb => hfair b (by simp [hb]))
      fun b hb => hon b (by simp [hb])
    rw [run_cons, countP_cons]
    split
    · rename_i hdelivered
      have := hmore hdelivered
      omega
    · omega

/-- **The upload completes**: after as many delivered sends as the body has bytes, whatever
else was called in between, the whole body is stored. -/
theorem Holds.completes (hfair : ∀ a ∈ turns, u.Fair a) (hon : ∀ a ∈ turns, a.goesOn = true)
    (henough : u.body.length ≤ turns.countP Turn.delivered) :
    ⟨u.record, u.body⟩ ∈ transfers (Machine.run (u.turn validateBytes) s turns).1 := by
  have hprogress := h.run_progress validateBytes hfair hon
  obtain ⟨t, ht, hrecord, hbody, hoffset⟩ := (h.run validateBytes hfair).stored
  have hfull : t.body = u.body := hbody.eq_of_length_le (by omega)
  rw [← hrecord, ← hfull]
  exact ht

end

end Upload

/-- What holds after some calls. -/
structure Guarantees (validateBytes : Bytes → Json) (events : List Event) (d : Dir) : Prop where
  /-- At most four transfers are live. -/
  few : ∀ now, ((transfers d).filter fun t => t.record.live now).length ≤ MAX_ACTIVE
  /-- At most one transfer is for a request. -/
  one_each : ((transfers d).map fun t => t.record.requestId).Nodup
  /-- The next call leaves a body as it is or continues it with the start of its bytes. -/
  grows : ∀ e, ∀ t ∈ transfers d, ∀ t' ∈ transfers (step validateBytes d e), t'.record = t.record →
    OnlyGrows e t.body t'.body
  /-- A finish that is answered has validated a body of the length and the digest that were
  given at the begin of this transfer, and the receipt names its request. -/
  finishes : ∀ c request answer after,
    dispatch validateBytes c "finish" request d = .ok answer after →
    ∃ t ∈ transfers d, (∃ e ∈ events, BegunBy e t.record) ∧
      t.body.length = t.record.length ∧ digest t.body = t.record.digest ∧
      requestIdOf request = some t.record.requestId ∧
      answer = accepted t.record.requestId (.obj [("validation",
        receipt t.record.requestId t.record.digest (validateBytes t.body))]) ∧
      ((receipt t.record.requestId t.record.digest (validateBytes t.body)).get "request_id").asStr =
        some t.record.requestId.1
  /-- Unless a header was cut off: true bytes at an offset not beyond the stored length are
  accepted, and accepted again with the same answer and no change of the body. -/
  accepts : (∀ e ∈ events, ¬ e.call.Cut) →
    ∀ t ∈ transfers d, ∀ c : Call, c.fault = .none → t.record.live c.now = true →
    ∀ body, t.body <+: body → body.length = t.record.length →
    ∀ request offset hex bytes, AppendRequest request t.record offset hex →
      decodeChunk hex = some bytes → offset ≤ t.body.length → bytes <+: body.drop offset →
    ∃ after, dispatch validateBytes c "append" request d =
        .ok (nextOffset t.record.requestId (max t.body.length (offset + bytes.length))) after ∧
      ⟨t.record, body.take (max t.body.length (offset + bytes.length))⟩ ∈ transfers after ∧
      ∀ c' : Call, c'.fault = .none → t.record.live c'.now = true →
        ∃ again, dispatch validateBytes c' "append" request after =
          .ok (nextOffset t.record.requestId (max t.body.length (offset + bytes.length))) again ∧
        ⟨t.record, body.take (max t.body.length (offset + bytes.length))⟩ ∈ transfers again
  /-- Unless a header was cut off: a client that goes on from any stored offset, and starts
  again from earlier ones as often as it likes, stores its whole body and can finish. -/
  completes : (∀ e ∈ events, ¬ e.call.Cut) →
    ∀ u : Upload, ∀ t ∈ transfers d, t.record = u.record → t.body <+: u.body →
    ∀ offset ≤ t.body.length, ∀ before turns : List Turn, (∀ a ∈ before ++ turns, u.Fair a) →
      (∀ a ∈ turns, a.goesOn = true) → u.body.length ≤ turns.countP Turn.delivered →
    ∀ final, final = run (u.turn validateBytes) (d, offset) (before ++ turns) →
    ⟨u.record, u.body⟩ ∈ transfers final.1 ∧
      ∀ c : Call, c.fault = .none → u.record.live c.now = true → digest u.body = u.record.digest →
        ∀ request, requestIdOf request = some u.record.requestId →
          (request.get "token").asStr = some u.record.token.1 →
        ∃ after, dispatch validateBytes c "finish" request final.1 =
          .ok (accepted u.record.requestId (.obj [("validation",
            receipt u.record.requestId u.record.digest (validateBytes u.body))])) after

theorem Sound.transfers_le {d : Dir} (h : Sound d) : (transfers d).length ≤ MAX_ACTIVE := by
  refine le_trans ?_ h.few
  rw [transfers, length_filterMap_eq_countP, ← countP_eq_length_filter]
  refine countP_mono_left fun e _ hstored => ?_
  obtain ⟨t, ht⟩ := Option.isSome_iff_exists.1 hstored
  obtain ⟨token, htoken, -⟩ := Option.bind_eq_some_iff.1 ht
  rw [Entry.candidate, htoken]
  rfl

theorem accepted_again (validateBytes : Bytes → Json) {d : Dir} (h : Sound d) (hwhole : Whole d)
    {t : Stored} (ht : t ∈ transfers d) {c : Call} (hfault : c.fault = .none)
    (hlive : t.record.live c.now = true) {body : Bytes} (hbody : t.body <+: body)
    (hlength : body.length = t.record.length) {request : Json} {offset : ℕ} {hex bytes : Bytes}
    (hrequest : AppendRequest request t.record offset hex) (hdecode : decodeChunk hex = some bytes)
    (htrue : bytes <+: body.drop offset) (hstored : offset + bytes.length ≤ t.body.length) :
    ∃ after, dispatch validateBytes c "append" request d =
        .ok (nextOffset t.record.requestId t.body.length) after ∧ t ∈ transfers after := by
  obtain ⟨after, hanswer, hkept⟩ := dispatch_append_accepted validateBytes h hwhole hfault ht hlive
    hbody hlength hrequest hdecode (by omega) htrue
  rw [max_eq_left hstored] at hanswer hkept
  rw [← take_of_begins hbody le_rfl, take_length] at hkept
  exact ⟨after, hanswer, hkept⟩

/-- **Candidate transfers**, after any calls by any number of clients, whichever of their
operations fail. -/
theorem candidate_transfers_sound (validateBytes : Bytes → Json) (events : List Event) :
    Guarantees validateBytes events (run (step validateBytes) [] events) := by
  have hsound := run_sound validateBytes events
  constructor
  case few => exact fun now => (length_filter_le _ _).trans hsound.transfers_le
  case one_each => exact hsound.requests
  case grows => exact fun e t ht t' ht' hrecord => step_grows hsound e ht ht' hrecord
  case finishes =>
    intro c request answer after hfinish
    obtain ⟨requestId, token, data, t, hrequest, -, rfl, hfinished⟩ :=
      (dispatch_finish_ends validateBytes c hsound request).of_ok hfinish
    obtain rfl := hfinished.request
    refine ⟨t, hfinished.mem, run_begun hfinished.mem, hfinished.length_eq, hfinished.digest_eq,
      hrequest, ?_, receipt_request _ _ _⟩
    rw [hfinished.answer_eq]
  case accepts =>
    intro huncut t ht c hfault hlive body hbody hlength request offset hex bytes hrequest hdecode
      hoffset htrue
    have hwhole := run_whole validateBytes huncut
    obtain ⟨after, hanswer, hstored⟩ := dispatch_append_accepted validateBytes hsound hwhole hfault
      ht hlive hbody hlength hrequest hdecode hoffset htrue
    refine ⟨after, hanswer, hstored, fun c' hfault' hlive' => ?_⟩
    have hleaves := (dispatch_ends validateBytes c hsound "append" request).of_ok hanswer
    have hcut : ¬ c.Cut := by
      rintro ⟨n, -, hn⟩
      rw [hfault] at hn
      cases hn
    have hlen : (body.take (max t.body.length (offset + bytes.length))).length =
        max t.body.length (offset + bytes.length) := by
      have hle := htrue.length_le
      have hle' := hbody.length_le
      rw [length_drop] at hle
      rw [length_take]
      omega
    have hagain := accepted_again validateBytes hleaves.sound (hleaves.whole hcut hwhole) hstored
      hfault' hlive' (List.take_prefix _ _) hlength hrequest hdecode htrue
      (by simp only [hlen]; exact le_max_right _ _)
    simp only [hlen] at hagain
    exact hagain
  case completes =>
    rintro huncut u t ht hrecord hbody offset hoffset before turns hfair hon henough final rfl
    have hholds : u.Holds (run (step validateBytes) [] events, offset) :=
      ⟨hsound, run_whole validateBytes huncut, t, ht, hrecord, hbody, hoffset⟩
    have hbefore :
      u.Holds (run (u.turn validateBytes) (run (step validateBytes) [] events, offset) before) :=
      hholds.run validateBytes fun a ha => hfair a (mem_append_left _ ha)
    have hafter : ∀ a ∈ turns, u.Fair a := fun a ha => hfair a (mem_append_right _ ha)
    have hcomplete := hbefore.completes validateBytes hafter hon henough
    have hend := hbefore.run validateBytes hafter
    rw [run_append]
    refine ⟨hcomplete, fun c hfault hlive hdigest request hrequest htoken => ?_⟩
    exact dispatch_finish_accepted validateBytes hend.sound hend.whole hfault hcomplete hlive
      u.length_eq hdigest hrequest htoken

/-- A begin, an append of five bytes of which two are stored, and the append again: the body
is there once. -/
example :
    let id := ascii "0123456789abcdef0123456789abcdef"
    let call := fun fault => (⟨100, 1000, ⟨replicate 16 7, rfl⟩, 0, 1000, fault⟩ : Call)
    let token := Random.token ⟨replicate 16 7, rfl⟩
    let begun := .obj [("request_id", .str id), ("length", .num 5),
      ("sha256", .str (replicate 64 0x61))]
    let sent := obj [("request_id", .str id), ("token", .str token.1), ("offset", .num 0),
      ("data", .str (ascii "68656c6c6f"))]
    (transfers (run (step fun _ => .null) [] [⟨call .none, "begin", begun⟩,
      ⟨call (.write 2), "append", sent⟩, ⟨call .none, "append", sent⟩])).map Stored.body =
        [ascii "hello"] := by
  decide +kernel

end CakeAutorate.Transfer
