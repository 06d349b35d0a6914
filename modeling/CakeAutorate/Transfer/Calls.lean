/-
# What a call leaves of the transfers

Every call keeps the directory sound, whichever of its operations fails.  Of every
transfer that it leaves it says where it comes from: it was there with the same record and
body, or its body has grown by the start of the bytes of this append, or this begin created
it.  A live transfer that was there is gone only after a finish or a cancel of its request.
-/

import CakeAutorate.Transfer.Soundness

namespace CakeAutorate.Transfer

open Syscall List Option Identity

/-- An action started in `d` ends well or it fails, each as said. -/
def Ends {α : Type} (m : Action α) (d : Dir) (ok : α → Dir → Prop) (fail : Dir → Prop) : Prop :=
  match m d with
  | .ok a after => ok a after
  | .error _ after => fail after

section

variable {α β : Type} {d : Dir} {ok : α → Dir → Prop} {fail : Dir → Prop} {m : Action α}
  {code : String}

variable {after : Dir}

theorem Ends.of_ok (h : Ends m d ok fail) {a : α} (hm : m d = .ok a after) : ok a after := by
  rw [Ends, hm] at h; exact h

theorem Ends.of_error (h : Ends m d ok fail) (hm : m d = .error code after) : fail after := by
  rw [Ends, hm] at h; exact h

theorem ends_bind {m : Action β} {f : β → Action α}
    (h : Ends m d (fun b after => Ends (f b) after ok fail) fail) : Ends (m >>= f) d ok fail := by
  unfold Ends at h ⊢
  simp only [bind, EStateM.bind]
  cases hm : m d with
  | ok b after => rw [hm] at h; exact h
  | error code after => rw [hm] at h; exact h

theorem Ends.mono (h : Ends m d ok fail) {ok' : α → Dir → Prop} {fail' : Dir → Prop}
    (hok : ∀ a after, ok a after → ok' a after) (hfail : ∀ after, fail after → fail' after) :
    Ends m d ok' fail' := by
  unfold Ends at h ⊢
  cases hm : m d with
  | ok a after => rw [hm] at h; exact hok a after h
  | error code after => rw [hm] at h; exact hfail after h

theorem ends_pure {a : α} (h : ok a d) : Ends (pure a) d ok fail := h

theorem ends_throw (h : fail d) : Ends (throw code : Action α) d ok fail := h

theorem ends_get {ok : Dir → Dir → Prop} (h : ok d d) : Ends get d ok fail := h

theorem ends_set {ok : PUnit → Dir → Prop} (h : ok ⟨⟩ after) : Ends (set after) d ok fail := h

theorem ends_modify {ok : PUnit → Dir → Prop} {f : Dir → Dir} (h : ok ⟨⟩ (f d)) :
    Ends (modify f) d ok fail := h

theorem ends_refuseIf {refused : Prop} [Decidable refused] {ok : Unit → Dir → Prop}
    (hok : ¬ refused → ok () d) (hfail : refused → fail d) :
    Ends (refuseIf refused code) d ok fail := by
  unfold refuseIf
  split
  · rename_i h; exact ends_throw (hfail h)
  · rename_i h; exact ends_pure (hok h)

theorem ends_required {field : Option α} (hok : ∀ a, field = some a → ok a d) (hfail : fail d) :
    Ends (required field code) d ok fail := by
  unfold required
  split
  · exact ends_throw hfail
  · exact ends_pure (hok _ rfl)

end

theorem unlink_sublist (d : Dir) (name : Bytes) : (d.unlink name).Sublist d := filter_sublist

theorem remove_ends (c : Call) (name : Bytes) (d : Dir) :
    Ends (remove c name) d (fun _ after => after = d.unlink name) (fun after => after = d) := by
  refine ends_bind (ends_refuseIf (fun _ => ?_) fun _ => rfl)
  exact ends_modify rfl

variable {d : Dir} {c : Call} {gone : Record → Prop} {r : Record} {requestId : Identity}
  {offset : ℕ} {request : Json} {t : Stored}

theorem records_ends (c : Call) (h : Sound d) :
    Ends (records c) d
      (fun rs after => after = (scan c 0 d).1 ∧ rs = (transfers after).map Stored.record ∧
        (∀ r ∈ rs, r.live c.now = true) ∧ (after.filter Entry.candidate).length = rs.length)
      (fun after => after = (scan c 0 d).1) := by
  unfold Ends records
  cases hscan : scan c 0 d with
  | mk after answer =>
    cases answer with
    | ok rs =>
      have hanswer : (scan c 0 d).2 = .ok rs := by rw [hscan]
      have hok := scan_ok h.written hanswer
      rw [hscan] at hok
      exact ⟨rfl, hok⟩
    | error code => exact rfl

def Call.Cut (c : Call) : Prop := ∃ n < HEADER, c.fault = .torn n

/-- A sound directory: each of its transfers was there or is new in a way that is said, and
each live one that was there is still there, possibly longer, or gone in a way that is said. -/
structure Leaves (c : Call) (d : Dir) (new : Stored → Prop) (gone : Record → Prop) (after : Dir) :
    Prop where
  sound : Sound after
  whole : ¬ c.Cut → Whole d → Whole after
  origin : ∀ t' ∈ transfers after, t' ∈ transfers d ∨ new t'
  keeps : ∀ t ∈ transfers d, t.record.live c.now = true → gone t.record ∨
    ∃ t' ∈ transfers after, t'.record = t.record ∧ t.body <+: t'.body

def noneNew : Stored → Prop := fun _ => False

def noneGone : Record → Prop := fun _ => False

theorem Leaves.imp {after : Dir} {new new' : Stored → Prop} {gone' : Record → Prop}
    (h : Leaves c d new gone after) (hnew : ∀ t', new t' → new' t') (hgone : ∀ r, gone r → gone' r) :
    Leaves c d new' gone' after :=
  ⟨h.sound, h.whole, fun t' ht' => (h.origin t' ht').imp_right (hnew t'),
    fun t ht hlive => (h.keeps t ht hlive).imp_left (hgone _)⟩

theorem Leaves.trans {mid after : Dir} {new : Stored → Prop} (h : Leaves c d noneNew noneGone mid)
    (h' : Leaves c mid new gone after) :
    Leaves c d new gone after where
  sound := h'.sound
  whole hcut hd := h'.whole hcut (h.whole hcut hd)
  origin t' ht' := by
    rcases h'.origin t' ht' with ht | hnew
    · rcases h.origin t' ht with ht | hnone
      · exact .inl ht
      · exact absurd hnone id
    · exact .inr hnew
  keeps t ht hlive := by
    rcases h.keeps t ht hlive with hnone | ⟨t₁, ht₁, hrecord, hbody⟩
    · exact absurd hnone id
    · rw [← hrecord] at hlive
      rcases h'.keeps t₁ ht₁ hlive with hgone | ⟨t', ht', hrecord', hbody'⟩
      · rw [hrecord] at hgone
        exact .inl hgone
      · exact .inr ⟨t', ht', hrecord'.trans hrecord, hbody.trans hbody'⟩

theorem Sound.leaves_same (h : Sound d) (c : Call) (new : Stored → Prop) (gone : Record → Prop) :
    Leaves c d new gone d :=
  ⟨h, fun _ hd => hd, fun _ ht' => .inl ht', fun t ht _ => .inr ⟨t, ht, rfl, prefix_refl _⟩⟩

theorem Sound.leaves_scan (h : Sound d) (c : Call) (new : Stored → Prop) (gone : Record → Prop) :
    Leaves c d new gone (scan c 0 d).1 :=
  ⟨h.sublist (scan_sublist c 0 d), fun _ hd => hd.sublist (scan_sublist c 0 d),
    fun _ ht' => .inl ((transfers_sublist (scan_sublist c 0 d)).subset ht'),
    fun t ht hlive => .inr ⟨t, h.scan_live c 0 ht hlive, rfl, prefix_refl _⟩⟩

theorem Sound.leaves_unlink (h : Sound d) (c : Call) (new : Stored → Prop)
    (hgone : ∀ t ∈ transfers d, t.record.live c.now = true → t.record.token = r.token → gone t.record) :
    Leaves c d new gone (d.unlink (fileName r.token)) where
  sound := h.sublist (unlink_sublist d _)
  whole _ hd := hd.sublist (unlink_sublist d _)
  origin t' ht' := .inl ((transfers_sublist (unlink_sublist d _)).subset ht')
  keeps t ht hlive := by
    by_cases htoken : t.record.token = r.token
    · exact .inl (hgone t ht hlive htoken)
    · obtain ⟨mtime, hfile, -⟩ := h.file ht
      refine .inr ⟨t, mem_transfers.2 ⟨_, ?_, stored?_whole _ _ mtime⟩, rfl, prefix_refl _⟩
      refine mem_filter.2 ⟨hfile, ?_⟩
      simpa using fun heq => htoken (fileName_injective heq)

theorem leaves_create (c : Call) {new : Stored → Prop} (gone : Record → Prop) {e : Entry}
    {position : ℕ} (hsound : Sound (d.create position e))
    (hwhole : ¬ c.Cut → e.candidate = true → e.stored?.isSome)
    (hnew : ∀ t, e.stored? = some t → new t) : Leaves c d new gone (d.create position e) where
  sound := hsound
  whole hcut hd e' he' hcandidate := by
    rcases mem_create.1 he' with rfl | he'
    · exact hwhole hcut hcandidate
    · exact hd e' he' hcandidate
  origin t' ht' := by
    rcases mem_transfers_create.1 ht' with hstored | ht
    · exact .inr (hnew t' hstored)
    · exact .inl ht
  keeps t ht _ := .inr ⟨t, mem_transfers_create.2 (.inr ht), rfl, prefix_refl _⟩

/-- What `load` finds: the file of the token, a live transfer of that request. -/
structure Loaded (c : Call) (d : Dir) (token : Bytes) (requestId : Identity) (e : Entry)
    (r : Record) : Prop where
  token_eq : token = r.token.1
  request : r.requestId = requestId
  live : r.live c.now = true
  file : ∃ body mtime, e = ⟨fileName r.token, r.bytes ++ body, mtime⟩ ∧ body.length ≤ r.length
  mem : e ∈ d

theorem path_ends (token : Bytes) (d : Dir) :
    Ends (path token) d (fun t after => after = d ∧ token = t.1) (fun after => after = d) := by
  unfold path
  split
  · exact ends_throw rfl
  · rename_i t ht
    exact ends_pure ⟨rfl, of?_eq_some.1 ht⟩

theorem load_ends (c : Call) (h : Sound d) (token : Bytes) (requestId : Identity) :
    Ends (load c token requestId) d
      (fun loaded after => after = d ∧ Loaded c d token requestId loaded.1 loaded.2)
      (Leaves c d noneNew noneGone) := by
  have hsame := h.leaves_same c noneNew noneGone
  refine ends_bind ((path_ends token d).mono ?_ ?_)
  case refine_2 => rintro after rfl; exact hsame
  rintro t after ⟨rfl, rfl⟩
  refine ends_bind (ends_get ?_)
  split
  · exact ends_throw hsame
  rename_i e hfind
  obtain ⟨he, hname⟩ := find_eq_some hfind
  split
  · exact ends_throw hsame
  rename_i r hread
  have hstored : e.stored? = some ⟨r, e.content.drop HEADER⟩ := by
    simp [Entry.stored?, hname, hread]
  obtain ⟨hrname, hcontent, hfits⟩ := (h.written e he).of_stored? hstored
  refine ends_bind (ends_refuseIf (fun hrequest => ?_) fun _ => hsame)
  split
  · rename_i hdead
    refine ends_bind ((remove_ends c e.name _).mono ?_ ?_)
    · rintro - after rfl
      refine ends_throw ?_
      rw [hrname]
      refine h.leaves_unlink c noneNew fun t ht hlive htoken => ?_
      rw [h.token_unique ht (mem_transfers.2 ⟨e, he, hstored⟩) htoken] at hlive
      simp [hlive] at hdead
    · rintro after rfl
      exact hsame
  · rename_i hlive
    refine ends_bind (ends_refuseIf (fun _ => ?_) fun _ => hsame)
    refine ends_pure ⟨rfl, ?_⟩
    refine ⟨by rw [Record.read_token hread], not_not.1 hrequest, by simpa using hlive, ?_, he⟩
    refine ⟨e.content.drop HEADER, e.mtime, ?_, hfits⟩
    rw [← hrname, ← hcontent]

theorem Loaded.stored {token : Bytes} {e : Entry} (h : Loaded c d token requestId e r) :
    ∃ body mtime, e = ⟨fileName r.token, r.bytes ++ body, mtime⟩ ∧ e ∈ d ∧
      body.length ≤ r.length ∧ ⟨r, body⟩ ∈ transfers d := by
  obtain ⟨body, mtime, rfl, hfits⟩ := h.file
  exact ⟨body, mtime, rfl, h.mem, hfits, mem_transfers.2 ⟨_, h.mem, stored?_whole _ _ _⟩⟩

/-- A transfer whose body has grown by the start of the bytes of an append. -/
structure Grown (d : Dir) (token : Bytes) (requestId : Identity) (offset : ℕ) (bytes : Bytes)
    (t' : Stored) : Prop where
  of : ∃ t ∈ transfers d, t.record.token.1 = token ∧ t.record.requestId = requestId ∧
    t'.record = t.record ∧ t.body <+: t'.body ∧ offset ≤ t.body.length ∧
    ∃ stored, t'.body = t.body.take offset ++ bytes.take stored

theorem append_rest {body bytes : Bytes} {overlap : ℕ} (hoffset : offset ≤ body.length)
    (hoverlap : overlap = min (body.length - offset) bytes.length) (hshort : overlap < bytes.length)
    (hagree : (body.drop offset).take overlap = bytes.take overlap) (k : ℕ) :
    body ++ (bytes.drop overlap).take k = body.take offset ++ bytes.take (overlap + k) := by
  have hlen : overlap = body.length - offset := by omega
  have hrest : body.drop offset = bytes.take overlap := by
    rw [← hagree, hlen, take_of_length_le]
    rw [length_drop]
  calc body ++ (bytes.drop overlap).take k
      = (body.take offset ++ body.drop offset) ++ (bytes.drop overlap).take k := by
        rw [take_append_drop]
    _ = body.take offset ++ (bytes.take overlap ++ (bytes.drop overlap).take k) := by
        rw [hrest, append_assoc]
    _ = body.take offset ++ bytes.take (overlap + k) := by rw [← take_add]

/-- What `append` has checked when it comes to its write. -/
structure Fits (r : Record) (body bytes : Bytes) (offset overlap : ℕ) : Prop where
  offset_le : offset ≤ body.length
  end_le : offset + bytes.length ≤ r.length
  overlap_eq : overlap = min (body.length - offset) bytes.length
  agree : (body.drop offset).take overlap = bytes.take overlap

variable {body : Bytes}

theorem writeChunk_ends (c : Call) (h : Sound d) {mtime : ℤ}
    (hfile : ⟨fileName r.token, r.bytes ++ body, mtime⟩ ∈ d) {bytes : Bytes} {overlap : ℕ}
    (hfits : Fits r body bytes offset overlap) :
    Ends (writeChunk c (fileName r.token) (bytes.drop overlap)) d
      (fun _ after => Leaves c d (Grown d r.token.1 r.requestId offset bytes) noneGone after ∧
        ⟨r, body ++ bytes.drop overlap⟩ ∈ transfers after)
      (Leaves c d (Grown d r.token.1 r.requestId offset bytes) noneGone) := by
  have hsame := h.leaves_same c (Grown d r.token.1 r.requestId offset bytes) noneGone
  have hmem : (⟨r, body⟩ : Stored) ∈ transfers d :=
    mem_transfers.2 ⟨_, hfile, stored?_whole _ _ _⟩
  unfold writeChunk
  split
  · rename_i hnone
    rw [hnone, append_nil]
    exact ends_pure ⟨hsame, hmem⟩
  rename_i hne
  have hshort : overlap < bytes.length := by
    by_contra hge
    exact hne (drop_eq_nil_of_le (by omega))
  -- every write stores the first bytes of what is left, possibly all of them
  have hwrite : ∀ k, Leaves c d (Grown d r.token.1 r.requestId offset bytes) noneGone
      (d.extend (fileName r.token) ((bytes.drop overlap).take k) c.stamp) := by
    intro k
    have hrest := append_rest hfits.offset_le hfits.overlap_eq hshort hfits.agree k
    have hend := hfits.end_le
    have hoverlap := hfits.overlap_eq
    refine ⟨h.extend hfile c.stamp ?_, fun _ hd => hd.extend h hfile _ _, ?_, ?_⟩
    · simp only [length_append, length_take, length_drop]
      omega
    · intro t' ht'
      rw [transfers_extend h hfile] at ht'
      obtain ⟨t, ht, rfl⟩ := mem_map.1 ht'
      split
      · rename_i htoken
        have heq : t = ⟨r, body⟩ := h.token_unique ht hmem htoken
        subst heq
        exact .inr ⟨⟨r, body⟩, hmem, rfl, rfl, rfl, prefix_append _ _, hfits.offset_le, _, hrest⟩
      · exact .inl ht
    · intro t ht _
      rw [transfers_extend h hfile]
      refine .inr ⟨_, mem_map_of_mem ht, ?_, ?_⟩
      · split <;> rfl
      · split
        · exact prefix_append _ _
        · exact prefix_refl _
  have hall : (bytes.drop overlap).take bytes.length = bytes.drop overlap := by
    rw [take_of_length_le]
    rw [length_drop]
    omega
  split
  · exact ends_throw hsame
  · exact ends_bind (ends_modify (ends_throw (hwrite _)))
  · have hfull := hwrite bytes.length
    rw [hall] at hfull
    refine ends_modify ⟨hfull, ?_⟩
    rw [transfers_extend h hfile]
    exact mem_map.2 ⟨⟨r, body⟩, hmem, if_pos rfl⟩

/-- What `append` answers: the end of the body, which then holds the whole chunk. -/
structure Answered (d : Dir) (token : Bytes) (requestId : Identity) (offset : ℕ) (bytes : Bytes)
    (answer : Json) (after : Dir) : Prop where
  of : ∃ t ∈ transfers d, t.record.token.1 = token ∧ t.record.requestId = requestId ∧
    answer = .obj [("next_offset", .num (max t.body.length (offset + bytes.length) : ℕ))] ∧
    ∃ t' ∈ transfers after, t'.record = t.record ∧
      t'.body.length = max t.body.length (offset + bytes.length)

theorem append_ends (c : Call) (h : Sound d) (token : Bytes) (requestId : Identity) (offset : ℕ)
    (hex : Bytes) :
    Ends (append c token requestId offset hex) d
      (fun answer after => Leaves c d (fun t' =>
        ∃ bytes, decodeChunk hex = some bytes ∧ Grown d token requestId offset bytes t') noneGone
          after ∧
        ∃ bytes, decodeChunk hex = some bytes ∧ Answered d token requestId offset bytes answer after)
      (Leaves c d (fun t' =>
        ∃ bytes, decodeChunk hex = some bytes ∧ Grown d token requestId offset bytes t') noneGone) := by
  have hsame := h.leaves_same c (fun t' =>
    ∃ bytes, decodeChunk hex = some bytes ∧ Grown d token requestId offset bytes t') noneGone
  unfold append
  split
  · exact ends_throw hsame
  rename_i bytes hdecode
  refine ends_bind ((load_ends c h token requestId).mono ?_ fun after hafter =>
    hafter.imp (fun _ hnone => absurd hnone id) fun _ hnone => hnone)
  rintro ⟨e, r⟩ after ⟨rfl, hloaded⟩
  change Loaded c _ token requestId e r at hloaded
  obtain ⟨body, mtime, rfl, hfile, -, hmem⟩ := hloaded.stored
  obtain rfl := hloaded.token_eq
  obtain rfl := hloaded.request
  have hlength : (r.bytes ++ body).length - HEADER = body.length := by
    rw [length_append, r.bytes_length]; omega
  have hdrop : (r.bytes ++ body).drop (HEADER + offset) = body.drop offset :=
    drop_append_add _ _ (by rw [r.bytes_length])
  refine ends_bind (ends_refuseIf (fun _ => ?_) fun _ => hsame)
  refine ends_bind (ends_refuseIf (fun hrange => ?_) fun _ => hsame)
  refine ends_bind (ends_refuseIf (fun hagree => ?_) fun _ => hsame)
  simp only [hlength, hdrop] at hrange hagree ⊢
  have hfits : Fits r body bytes offset (min (body.length - offset) bytes.length) :=
    ⟨by omega, by omega, rfl, not_not.1 hagree⟩
  refine ends_bind ((writeChunk_ends c h hfile hfits).mono ?_ ?_)
  · rintro - after ⟨hafter, hstored⟩
    refine ends_pure ⟨hafter.imp (fun t' hgrown => ⟨bytes, hdecode, hgrown⟩) fun _ hnone => hnone,
      bytes, hdecode, ⟨r, body⟩, hmem, rfl, rfl, rfl, _, hstored, rfl, ?_⟩
    simp only [length_append, length_drop]
    omega
  · exact fun after hafter =>
      hafter.imp (fun t' hgrown => ⟨bytes, hdecode, hgrown⟩) fun _ hnone => hnone

/-- A transfer that this begin created. -/
structure Begun (c : Call) (requestId : Identity) (length : ℕ) (digest : Bytes) (t' : Stored) :
    Prop where
  body : t'.body = []
  request : t'.record.requestId = requestId
  length_eq : t'.record.length = length
  digest_eq : t'.record.digest.1 = digest
  created : t'.record.created = c.now
  token : t'.record.token = c.random.token

theorem createFile_ends (c : Call) (h : Sound d) (hcreated : r.created = c.now)
    (htoken : r.token = c.random.token) (hroom : (d.filter Entry.candidate).length < MAX_ACTIVE)
    (hrequest : ∀ u ∈ transfers d, u.record.requestId ≠ r.requestId) :
    Ends (createFile c r) d (fun _ => Leaves c d (Begun c r.requestId r.length r.digest.1) noneGone)
      (Leaves c d (Begun c r.requestId r.length r.digest.1) noneGone) := by
  have hsame := h.leaves_same c (Begun c r.requestId r.length r.digest.1) noneGone
  have hbegun : Begun c r.requestId r.length r.digest.1 ⟨r, []⟩ :=
    ⟨rfl, rfl, rfl, rfl, hcreated, htoken⟩
  refine ends_bind (ends_get ?_)
  refine ends_bind (ends_refuseIf (fun hfree => ?_) fun _ => hsame)
  have hnone : d.find (fileName r.token) = none := by
    by_contra hsome
    exact hfree (.inl (isSome_iff_ne_none.2 hsome))
  have hname := find_eq_none hnone
  -- a whole header is a transfer without a body, a part of one is none
  have hwhole : Leaves c d (Begun c r.requestId r.length r.digest.1) noneGone
      (d.create c.position ⟨fileName r.token, r.bytes, c.stamp⟩) := by
    have hbytes : r.bytes = r.bytes ++ [] := (append_nil _).symm
    have hstored : Entry.stored? ⟨fileName r.token, r.bytes, c.stamp⟩ = some ⟨r, []⟩ := by
      rw [hbytes, stored?_whole]
    refine leaves_create c noneGone (h.create _ ?_ hname (fun _ => hroom) ?_)
      (fun _ _ => by rw [hstored]; rfl) ?_
    · rw [hbytes]
      exact .whole r [] c.stamp (Nat.zero_le _)
    · intro t ht
      rw [hstored, some.injEq] at ht
      subst ht
      exact hrequest
    · intro t ht
      rw [hstored, some.injEq] at ht
      subst ht
      exact hbegun
  have hcut : ∀ n, c.fault = .torn n → Leaves c d (Begun c r.requestId r.length r.digest.1) noneGone
      (d.create c.position ⟨fileName r.token, r.bytes.take n, c.stamp⟩) := by
    intro n hfault
    by_cases hn : n < HEADER
    · have hstored := stored?_cut r c.stamp hn
      refine leaves_create c noneGone (h.create _ (.cut r n c.stamp hn) hname (fun _ => hroom) ?_)
        (fun huncut => absurd ⟨n, hn, hfault⟩ huncut) ?_
      · intro t ht
        rw [hstored] at ht
        cases ht
      · intro t ht
        rw [hstored] at ht
        cases ht
    · rw [take_of_length_le (by rw [r.bytes_length]; omega)]
      exact hwhole
  split
  · exact ends_throw hsame
  · rename_i hfault
    exact ends_bind (ends_set (ends_throw (hcut _ hfault)))
  · exact ends_bind (ends_set (ends_pure hwhole))

theorem begin_ends (c : Call) (h : Sound d) (requestId : Identity) (length : ℕ) (digest : Bytes) :
    Ends (begin c requestId length digest) d
      (fun _ => Leaves c d (Begun c requestId length digest) noneGone)
      (Leaves c d (Begun c requestId length digest) noneGone) := by
  have hsame := h.leaves_same c (Begun c requestId length digest) noneGone
  have hscan := h.leaves_scan c (Begun c requestId length digest) noneGone
  unfold begin
  split
  · exact ends_throw hsame
  rename_i digest' hdigest
  obtain rfl := Digest.of?_eq_some.1 hdigest
  split
  case isFalse => exact ends_throw hsame
  refine ends_bind ((records_ends c h).mono ?_ ?_)
  case refine_2 => rintro after rfl; exact hscan
  rintro rs after ⟨rfl, hrs, -, hcount⟩
  split
  · refine ends_bind (ends_refuseIf (fun _ => ?_) fun _ => hscan)
    exact ends_pure hscan
  · rename_i hfind
    refine ends_bind (ends_refuseIf (fun hroom => ?_) fun _ => hscan)
    refine (createFile_ends c hscan.sound rfl rfl (by omega) ?_).mono ?_ ?_
    · intro u hu heq
      have hmem : u.record ∈ rs := by rw [hrs]; exact mem_map_of_mem hu
      have := find?_eq_none.1 hfind u.record hmem
      exact this (by simpa using heq)
    · exact fun _ after hafter => (h.leaves_scan c noneNew noneGone).trans hafter
    · exact fun after hafter => (h.leaves_scan c noneNew noneGone).trans hafter

/-- What `finish` answers and to what: a live transfer of this token and request, whose
body has the length and the digest of its record. -/
structure Finished (validateBytes : Bytes → Json) (c : Call) (d : Dir) (token : Bytes)
    (requestId : Identity) (answer : Json) (t : Stored) : Prop where
  mem : t ∈ transfers d
  token_eq : t.record.token.1 = token
  request : t.record.requestId = requestId
  live : t.record.live c.now = true
  length_eq : t.body.length = t.record.length
  digest_eq : digest t.body = t.record.digest
  answer_eq : answer = .obj [("validation", receipt requestId t.record.digest (validateBytes t.body))]

def named (token : Bytes) (requestId : Identity) : Record → Prop :=
  fun r => r.token.1 = token ∧ r.requestId = requestId

theorem Loaded.leaves_unlink (h : Sound d) {token : Bytes} {e : Entry}
    (hloaded : Loaded c d token requestId e r) :
    Leaves c d noneNew (named token requestId) (d.unlink e.name) := by
  obtain ⟨body, mtime, rfl, hfile, -, hmem⟩ := hloaded.stored
  refine h.leaves_unlink c noneNew fun t ht _ htoken => ?_
  rw [h.token_unique ht hmem htoken]
  exact ⟨hloaded.token_eq.symm, hloaded.request⟩

theorem load_fails : ∀ after, Leaves c d noneNew noneGone after → Leaves c d noneNew gone after :=
  fun _ h => h.imp (fun _ hnew => hnew) fun _ hnone => absurd hnone id

variable (validateBytes : Bytes → Json)

theorem finish_ends (c : Call) (h : Sound d) (token : Bytes) (requestId : Identity) :
    Ends (finish validateBytes c token requestId) d
      (fun answer after => Leaves c d noneNew (named token requestId) after ∧
        ∃ t, Finished validateBytes c d token requestId answer t)
      (Leaves c d noneNew (named token requestId)) := by
  refine ends_bind ((load_ends c h token requestId).mono ?_ load_fails)
  rintro ⟨e, r⟩ after ⟨rfl, hloaded⟩
  change Loaded c _ token requestId e r at hloaded
  have hsame := h.leaves_same c noneNew (named token requestId)
  have hgone := hloaded.leaves_unlink h
  obtain ⟨body, mtime, rfl, -, hbody, hmem⟩ := hloaded.stored
  have hdrop : (r.bytes ++ body).drop HEADER = body := by
    rw [drop_append_add (m := 0) _ _ (by simp), drop_zero]
  refine ends_bind (ends_refuseIf (fun hlength => ?_) fun _ => hsame)
  refine ends_bind ((remove_ends c _ _).mono ?_ ?_)
  case refine_2 => rintro after rfl; exact hsame
  rintro - after rfl
  refine ends_bind (ends_refuseIf (fun hdigest => ?_) fun _ => hgone)
  refine ends_pure ⟨hgone, ⟨r, body⟩, hmem, hloaded.token_eq.symm, hloaded.request, hloaded.live,
    ?_, ?_, ?_⟩
  · rw [not_not, length_append, r.bytes_length] at hlength
    exact Nat.add_left_cancel hlength
  · have htake : body.take (r.length + 1) = body := take_of_length_le (by omega)
    simp only [hdrop, htake, not_or, not_not] at hdigest
    exact hdigest.2
  · have htake : body.take (r.length + 1) = body := take_of_length_le (by omega)
    simp [hdrop, htake]

theorem cancel_ends (c : Call) (h : Sound d) (token : Bytes) (requestId : Identity) :
    Ends (cancel c token requestId) d (fun _ => Leaves c d noneNew (named token requestId))
      (Leaves c d noneNew (named token requestId)) := by
  have hsame := h.leaves_same c noneNew (named token requestId)
  refine ends_bind ((path_ends token d).mono ?_ ?_)
  case refine_2 => rintro after rfl; exact hsame
  rintro t after ⟨rfl, rfl⟩
  refine ends_bind (ends_get ?_)
  split
  · exact ends_pure hsame
  refine ends_bind ((load_ends c h t.1 requestId).mono ?_ load_fails)
  rintro ⟨e, r⟩ after ⟨rfl, hloaded⟩
  refine ends_bind ((remove_ends c _ _).mono ?_ ?_)
  · rintro - after rfl
    exact ends_pure (Loaded.leaves_unlink h hloaded)
  · rintro after rfl
    exact hsame

theorem cancelRequest_ends (c : Call) (h : Sound d) (requestId : Identity) (digest : Bytes) :
    Ends (cancelRequest c requestId digest) d
      (fun _ => Leaves c d noneNew fun r => r.requestId = requestId)
      (Leaves c d noneNew fun r => r.requestId = requestId) := by
  have hsame := h.leaves_same c noneNew fun r => r.requestId = requestId
  have hscan := h.leaves_scan c noneNew fun r => r.requestId = requestId
  unfold cancelRequest
  split
  · exact ends_throw hsame
  refine ends_bind ((records_ends c h).mono ?_ ?_)
  case refine_2 => rintro after rfl; exact hscan
  rintro rs after ⟨rfl, -, -, -⟩
  split
  · rename_i r _
    refine ends_bind (ends_refuseIf (fun _ => ?_) fun _ => hscan)
    have htrans : ∀ after, Leaves c (scan c 0 d).1 noneNew (named r.token.1 requestId) after →
        Leaves c d noneNew (fun r => r.requestId = requestId) after := fun after hafter =>
      (h.leaves_scan c noneNew noneGone).trans
        (hafter.imp (fun _ hnew => hnew) fun r' hnamed => hnamed.2)
    exact (cancel_ends c hscan.sound r.token.1 requestId).mono (fun _ after => htrans after) htrans
  · exact ends_pure hscan

/-- A transfer that a call created, or whose body it made longer. -/
inductive Made (c : Call) (d : Dir) (method : String) (request : Json) (requestId : Identity)
    (t' : Stored) : Prop
  | begun (length : ℕ) (digest : Bytes) (hmethod : method = "begin")
      (hlength : (request.get "length").asU64 = some length)
      (hdigest : (request.get "sha256").asStr = some digest)
      (h : Begun c requestId length digest t')
  | grown (token : Bytes) (offset : ℕ) (hex bytes : Bytes) (hmethod : method = "append")
      (htoken : (request.get "token").asStr = some token)
      (hoffset : (request.get "offset").asU64 = some offset)
      (hdata : (request.get "data").asStr = some hex) (hdecode : decodeChunk hex = some bytes)
      (h : Grown d token requestId offset bytes t')

def Ended (method : String) (requestId : Identity) : Record → Prop :=
  fun r => (method = "finish" ∨ method = "cancel") ∧ r.requestId = requestId

theorem openStore_ends (c : Call) (h : Sound d) :
    Ends (openStore c) d (fun _ => Leaves c d noneNew noneGone) (Leaves c d noneNew noneGone) := by
  have hsame := h.leaves_same c noneNew noneGone
  refine ends_bind (ends_get ?_)
  split
  · rename_i hnone
    have hcreate : Leaves c d noneNew noneGone (d.create c.position ⟨lockName, [], c.stamp⟩) := by
      refine leaves_create c noneGone
        (h.create _ (.lock c.stamp) (find_eq_none hnone) ?_ ?_) (fun _ hcandidate => ?_) ?_
      · intro hcandidate
        cases hcandidate
      · intro t ht
        cases ht
      · cases hcandidate
      · intro t ht
        cases ht
    exact ends_bind (ends_set (ends_refuseIf (fun _ => hcreate) fun _ => hcreate))
  · refine ends_bind (ends_refuseIf (fun _ => ?_) fun _ => hsame)
    exact ends_refuseIf (fun _ => hsame) fun _ => hsame

theorem serve_ends (c : Call) (h : Sound d) (method : String) (request : Json)
    (requestId : Identity) :
    Ends (serve validateBytes c method request requestId) d
      (fun _ => Leaves c d (Made c d method request requestId) (Ended method requestId))
      (Leaves c d (Made c d method request requestId) (Ended method requestId)) := by
  have hsame := h.leaves_same c (Made c d method request requestId) (Ended method requestId)
  unfold serve
  split
  · refine ends_bind (ends_required (fun length hlength => ?_) hsame)
    refine ends_bind (ends_required (fun sha256 hsha256 => ?_) hsame)
    have hmade : ∀ after, Leaves c d (Begun c requestId length sha256) noneGone after →
        Leaves c d (Made c d "begin" request requestId) (Ended "begin" requestId) after :=
      fun after hafter => hafter.imp
        (fun t' hbegun => .begun length sha256 rfl (filter_eq_some_iff.1 hlength).1 hsha256 hbegun)
        fun _ hnone => absurd hnone id
    exact (begin_ends c h requestId length sha256).mono (fun _ after => hmade after) hmade
  · refine ends_bind (ends_required (fun token htoken => ?_) hsame)
    refine ends_bind (ends_required (fun offset hoffset => ?_) hsame)
    refine ends_bind (ends_required (fun hex hdata => ?_) hsame)
    have hmade : ∀ after, Leaves c d (fun t' => ∃ bytes, decodeChunk hex = some bytes ∧
        Grown d token requestId offset bytes t') noneGone after →
        Leaves c d (Made c d "append" request requestId) (Ended "append" requestId) after :=
      fun after hafter => hafter.imp
        (by
          rintro t' ⟨bytes, hdecode, hgrown⟩
          exact .grown token offset hex bytes rfl htoken (filter_eq_some_iff.1 hoffset).1
            hdata hdecode hgrown)
        fun _ hnone => absurd hnone id
    exact (append_ends c h token requestId offset hex).mono
      (fun _ after hafter => hmade after hafter.1) hmade
  · refine ends_bind (ends_required (fun token _ => ?_) hsame)
    have hmade : ∀ after, Leaves c d noneNew (named token requestId) after →
        Leaves c d (Made c d "finish" request requestId) (Ended "finish" requestId) after :=
      fun after hafter => hafter.imp (fun t' hnone => absurd hnone id)
        fun _ hnamed => ⟨.inl rfl, hnamed.2⟩
    exact (finish_ends validateBytes c h token requestId).mono
      (fun _ after hafter => hmade after hafter.1) hmade
  · split
    · rename_i b rest _
      have hmade : ∀ after, Leaves c d noneNew (named (b :: rest) requestId) after →
          Leaves c d (Made c d "cancel" request requestId) (Ended "cancel" requestId) after :=
        fun after hafter => hafter.imp (fun t' hnone => absurd hnone id)
          fun _ hnamed => ⟨.inr rfl, hnamed.2⟩
      exact (cancel_ends c h (b :: rest) requestId).mono (fun _ after => hmade after) hmade
    · refine ends_bind (ends_required (fun sha256 _ => ?_) hsame)
      have hmade : ∀ after, Leaves c d noneNew (fun r => r.requestId = requestId) after →
          Leaves c d (Made c d "cancel" request requestId) (Ended "cancel" requestId) after :=
        fun after hafter => hafter.imp (fun t' hnone => absurd hnone id)
          fun _ hrequest => ⟨.inr rfl, hrequest⟩
      exact (cancelRequest_ends c h requestId sha256).mono (fun _ after => hmade after) hmade
  · exact ends_throw hsame

def requestIdOf (request : Json) : Option Identity :=
  (request.get "request_id").asStr.bind of?

def MadeBy (c : Call) (d : Dir) (method : String) (request : Json) : Stored → Prop :=
  fun t' => ∃ requestId, requestIdOf request = some requestId ∧ Made c d method request requestId t'

def EndedBy (method : String) (request : Json) : Record → Prop :=
  fun r => requestIdOf request = some r.requestId ∧ (method = "finish" ∨ method = "cancel")

theorem Made.mono {d' : Dir} {method : String} {t' : Stored}
    (h : Made c d method request requestId t') (hsub : ∀ t ∈ transfers d, t ∈ transfers d') :
    Made c d' method request requestId t' := by
  cases h with
  | begun length digest hmethod hlength hdigest h =>
    exact .begun length digest hmethod hlength hdigest h
  | grown token offset hex bytes hmethod htoken hoffset hdata hdecode h =>
    obtain ⟨t, ht, hrest⟩ := h.of
    exact .grown token offset hex bytes hmethod htoken hoffset hdata hdecode ⟨t, hsub t ht, hrest⟩

theorem dispatch_rule (c : Call) (h : Sound d) (method : String) (request : Json)
    {ok : Json → Dir → Prop} {fail : Dir → Prop}
    (hfail : ∀ mid, Leaves c d noneNew noneGone mid → fail mid)
    (hserve : ∀ requestId mid, requestIdOf request = some requestId →
      Leaves c d noneNew noneGone mid → Ends (serve validateBytes c method request requestId) mid
      (fun data after => ok (accepted requestId data) after) fail) :
    Ends (dispatch validateBytes c method request) d ok fail := by
  refine ends_bind (ends_required (fun requestId hrequest => ?_)
    (hfail d (h.leaves_same c noneNew noneGone)))
  refine ends_bind ((openStore_ends c h).mono ?_ hfail)
  intro _ mid hmid
  have hscan := hmid.trans (hmid.sound.leaves_scan c noneNew noneGone)
  have hanswer : ∀ mid, Leaves c d noneNew noneGone mid →
      Ends (serve validateBytes c method request requestId >>= fun data =>
        pure (accepted requestId data)) mid ok fail := fun mid hmid =>
    ends_bind ((hserve requestId mid hrequest hmid).mono
      (fun _ _ hdata => ends_pure hdata) fun _ hfailed => hfailed)
  split
  · refine ends_bind ((records_ends c hmid.sound).mono ?_ ?_)
    · rintro rs after ⟨rfl, -⟩
      exact hanswer _ hscan
    · rintro after rfl
      exact hfail _ hscan
  · exact ends_bind (ends_pure (hanswer mid hmid))

theorem Leaves.mem_of_mem {mid : Dir} (hmid : Leaves c d noneNew noneGone mid)
    (ht : t ∈ transfers mid) : t ∈ transfers d := by
  rcases hmid.origin t ht with hold | hnone
  · exact hold
  · exact absurd hnone id

/-- **A call**, from a sound directory, however it ends. -/
theorem dispatch_ends (c : Call) (h : Sound d) (method : String) (request : Json) :
    Ends (dispatch validateBytes c method request) d
      (fun _ => Leaves c d (MadeBy c d method request) (EndedBy method request))
      (Leaves c d (MadeBy c d method request) (EndedBy method request)) := by
  refine dispatch_rule validateBytes c h method request ?_ ?_
  · exact fun mid hmid => hmid.imp (fun _ hnone => absurd hnone id) fun _ hnone => absurd hnone id
  · intro requestId mid hrequest hmid
    have hpost : ∀ after, Leaves c mid (Made c mid method request requestId)
        (Ended method requestId) after →
        Leaves c d (MadeBy c d method request) (EndedBy method request) after := by
      intro after hafter
      refine hmid.trans (hafter.imp (fun t' hmade => ⟨requestId, hrequest, hmade.mono ?_⟩) ?_)
      · exact fun t ht => hmid.mem_of_mem ht
      · rintro r ⟨hmethod, rfl⟩
        exact ⟨hrequest, hmethod⟩
    exact (serve_ends validateBytes c hmid.sound method request requestId).mono
      (fun _ after => hpost after) hpost

theorem dispatch_append_ends (c : Call) (h : Sound d) (request : Json) :
    Ends (dispatch validateBytes c "append" request) d
      (fun answer after => ∃ requestId token offset hex bytes data,
        requestIdOf request = some requestId ∧ (request.get "token").asStr = some token ∧
        (request.get "offset").asU64 = some offset ∧ (request.get "data").asStr = some hex ∧
        decodeChunk hex = some bytes ∧ answer = accepted requestId data ∧
        Answered d token requestId offset bytes data after)
      (fun _ => True) := by
  refine dispatch_rule validateBytes c h "append" request (fun _ _ => trivial) ?_
  intro requestId mid hrequest hmid
  unfold serve
  refine ends_bind (ends_required (fun token htoken => ?_) trivial)
  refine ends_bind (ends_required (fun offset hoffset => ?_) trivial)
  refine ends_bind (ends_required (fun hex hdata => ?_) trivial)
  refine (append_ends c hmid.sound token requestId offset hex).mono ?_ fun _ _ => trivial
  rintro data after ⟨-, bytes, hdecode, ⟨t, ht, hrest⟩⟩
  exact ⟨requestId, token, offset, hex, bytes, data, hrequest, htoken,
    (filter_eq_some_iff.1 hoffset).1, hdata, hdecode, rfl, ⟨t, hmid.mem_of_mem ht, hrest⟩⟩

theorem dispatch_finish_ends (c : Call) (h : Sound d) (request : Json) :
    Ends (dispatch validateBytes c "finish" request) d
      (fun answer _ => ∃ requestId token data t, requestIdOf request = some requestId ∧
        (request.get "token").asStr = some token ∧ answer = accepted requestId data ∧
        Finished validateBytes c d token requestId data t)
      (fun _ => True) := by
  refine dispatch_rule validateBytes c h "finish" request (fun _ _ => trivial) ?_
  intro requestId mid hrequest hmid
  unfold serve
  refine ends_bind (ends_required (fun token htoken => ?_) trivial)
  refine (finish_ends validateBytes c hmid.sound token requestId).mono ?_ fun _ _ => trivial
  rintro data after ⟨-, t, hfinished⟩
  exact ⟨requestId, token, data, t, hrequest, htoken, rfl,
    { hfinished with mem := hmid.mem_of_mem hfinished.mem }⟩

theorem bind_ok {α β : Type} {m : Action α} {f : α → Action β} {after : Dir} {a : α}
    (h : m d = .ok a after) : (m >>= f) d = f a after := by
  simp [bind, EStateM.bind, h]

theorem refuseIf_ok {refused : Prop} [Decidable refused] (h : ¬ refused) (code : String) (d : Dir) :
    refuseIf refused code d = .ok () d := by
  rw [refuseIf, if_neg h]
  rfl

theorem refuseIf_bind {α : Type} {refused : Prop} [Decidable refused] {code : String}
    {f : Unit → Action α} (h : ¬ refused) : (refuseIf refused code >>= f) d = f () d :=
  bind_ok (refuseIf_ok h code d)

theorem take_of_begins {p l : Bytes} (h : p <+: l) {n : ℕ} (hn : n ≤ p.length) :
    p.take n = l.take n := by
  obtain ⟨rest, rfl⟩ := h
  rw [take_append_of_le_length hn]

theorem openStore_ok (h : Sound d) (hfault : c.fault ≠ .busy) :
    ∃ after, openStore c d = .ok () after := by
  unfold openStore
  rw [bind_ok (m := get) (a := d) rfl]
  cases hfind : d.find lockName with
  | none =>
    refine ⟨d.create c.position ⟨lockName, [], c.stamp⟩, ?_⟩
    exact refuseIf_ok hfault _ _
  | some e =>
    obtain ⟨he, hname⟩ := find_eq_some hfind
    have hempty : e.content = [] := by
      have hforeign : candidateToken e.name = none := by rw [hname, candidateToken_lockName]
      cases h.written e he with
      | lock mtime => rfl
      | cut r n mtime hn => simp at hforeign
      | whole r body mtime hbody => simp at hforeign
    refine ⟨d, ?_⟩
    simp only
    rw [refuseIf_bind (not_not.2 hempty)]
    exact refuseIf_ok hfault _ _

theorem load_ok (h : Sound d) (ht : t ∈ transfers d) (hlive : t.record.live c.now = true) :
    ∃ mtime, ⟨fileName t.record.token, t.record.bytes ++ t.body, mtime⟩ ∈ d ∧
      load c t.record.token.1 t.record.requestId d =
        .ok (⟨fileName t.record.token, t.record.bytes ++ t.body, mtime⟩, t.record) d := by
  obtain ⟨mtime, hfile, hfits⟩ := h.file ht
  refine ⟨mtime, hfile, ?_⟩
  have hpath : path t.record.token.1 d = .ok t.record.token d := by
    have hof : of? t.record.token.1 = some t.record.token := by simp
    rw [path, hof]
    rfl
  have hfind := h.find_mem hfile
  have hlong : ¬ HEADER + t.record.length < (t.record.bytes ++ t.body).length := by
    rw [length_append, t.record.bytes_length]; omega
  unfold load
  rw [bind_ok hpath, bind_ok (m := get) (a := d) rfl]
  simp only [hfind, Record.read_bytes]
  rw [refuseIf_bind (not_not.2 rfl), if_neg (by simp [hlive]), refuseIf_bind hlong]
  rfl

theorem append_accepted (h : Sound d) (hfault : c.fault = .none) (ht : t ∈ transfers d)
    (hlive : t.record.live c.now = true) (hbody : t.body <+: body)
    (hlength : body.length = t.record.length) {hex bytes : Bytes}
    (hdecode : decodeChunk hex = some bytes) (hoffset : offset ≤ t.body.length)
    (htrue : bytes <+: body.drop offset) :
    ∃ after, append c t.record.token.1 t.record.requestId offset hex d =
        .ok (.obj [("next_offset", .num (max t.body.length (offset + bytes.length) : ℕ))]) after ∧
      ⟨t.record, body.take (max t.body.length (offset + bytes.length))⟩ ∈ transfers after := by
  obtain ⟨mtime, hfile, hload⟩ := load_ok h ht hlive
  have hbytes : bytes.length ≤ body.length - offset := by
    have := htrue.length_le
    rwa [length_drop] at this
  have hstored := hbody.length_le
  have hcurrent : (t.record.bytes ++ t.body).length - HEADER = t.body.length := by
    rw [length_append, t.record.bytes_length]; omega
  have hdrop : (t.record.bytes ++ t.body).drop (HEADER + offset) = t.body.drop offset :=
    drop_append_add _ _ (by rw [t.record.bytes_length])
  have hlong : ¬ (t.record.bytes ++ t.body).length < HEADER := by simp
  have hagree : (t.body.drop offset).take (min (t.body.length - offset) bytes.length) =
      bytes.take (min (t.body.length - offset) bytes.length) := by
    rw [take_of_begins (hbody.drop offset) (by rw [length_drop]; omega),
      take_of_begins htrue (by omega)]
  unfold append
  simp only [hdecode]
  rw [bind_ok hload]
  simp only
  rw [refuseIf_bind hlong, refuseIf_bind (by rw [hcurrent]; omega),
    refuseIf_bind (by rw [hcurrent, hdrop]; exact not_not.2 hagree)]
  simp only [hcurrent]
  unfold writeChunk
  by_cases hrest : bytes.drop (min (t.body.length - offset) bytes.length) = []
  · -- the chunk is stored already
    have hend : offset + bytes.length ≤ t.body.length := by
      have := congrArg List.length hrest
      simp only [length_drop, length_nil] at this
      omega
    rw [if_pos hrest]
    refine ⟨d, rfl, ?_⟩
    rw [max_eq_left hend, ← take_of_begins hbody le_rfl, take_length]
    exact ht
  · have hshort : min (t.body.length - offset) bytes.length < bytes.length := by
      by_contra hge
      exact hrest (drop_eq_nil_of_le (by omega))
    have hend : t.body.length ≤ offset + bytes.length := by omega
    have hnew : t.body ++ bytes.drop (min (t.body.length - offset) bytes.length) =
        body.take (offset + bytes.length) := by
      have hcontinue := append_rest hoffset rfl hshort hagree bytes.length
      have hrestall : (bytes.drop (min (t.body.length - offset) bytes.length)).take bytes.length =
          bytes.drop (min (t.body.length - offset) bytes.length) :=
        take_of_length_le (by rw [length_drop]; omega)
      have hbytesall : bytes.take (min (t.body.length - offset) bytes.length + bytes.length) = bytes :=
        take_of_length_le (by omega)
      rw [hrestall, hbytesall] at hcontinue
      rw [hcontinue, take_add, ← take_of_begins htrue le_rfl, take_length,
        take_of_begins hbody hoffset]
    rw [if_neg hrest, hfault, max_eq_right hend]
    refine ⟨_, rfl, ?_⟩
    rw [transfers_extend h hfile]
    refine mem_map.2 ⟨t, ht, ?_⟩
    rw [if_pos rfl, hnew]

theorem Leaves.mem_of_live {mid : Dir} (h : Sound d) (hmid : Leaves c d noneNew noneGone mid)
    (ht : t ∈ transfers d) (hlive : t.record.live c.now = true) : t ∈ transfers mid := by
  rcases hmid.keeps t ht hlive with hnone | ⟨t', ht', hrecord, -⟩
  · exact absurd hnone id
  · rw [h.token_unique ht (hmid.mem_of_mem ht') (by rw [hrecord])]
    exact ht'

theorem dispatch_served (h : Sound d) (hwhole : Whole d) (hfault : c.fault = .none)
    (method : String) (hmethod : method ≠ "begin") (hrequest : requestIdOf request = some requestId) :
    ∃ mid, Leaves c d noneNew noneGone mid ∧ dispatch validateBytes c method request d =
      (serve validateBytes c method request requestId >>= fun data =>
        pure (accepted requestId data)) mid := by
  have hrequired : required ((request.get "request_id").asStr.bind of?)
      "candidate-request-id-invalid" d = .ok requestId d := by
    rw [show (request.get "request_id").asStr.bind of? = some requestId from hrequest]
    rfl
  obtain ⟨opened, hopen⟩ : ∃ opened, openStore c d = .ok () opened :=
    openStore_ok h (by rw [hfault]; exact fun h => by cases h)
  have hopened := (openStore_ends c h).of_ok hopen
  have huncut : ¬ c.Cut := by
    rintro ⟨n, -, hn⟩
    rw [hfault] at hn
    cases hn
  obtain ⟨rs, hscan⟩ := scan_complete (c := c) 0 hopened.sound.written
    (hopened.whole huncut hwhole) (fun n => by rw [hfault]; exact fun h => by cases h)
    (by have := hopened.sound.length_le; unfold MAX_ACTIVE MAX_SCAN at *; omega)
  have hrecords : records c opened = .ok rs (scan c 0 opened).1 := by
    unfold records
    cases hpair : scan c 0 opened with
    | mk after answer =>
      rw [hpair] at hscan
      obtain rfl : answer = .ok rs := hscan
      rfl
  refine ⟨(scan c 0 opened).1, hopened.trans (hopened.sound.leaves_scan c noneNew noneGone), ?_⟩
  unfold dispatch
  rw [bind_ok hrequired, bind_ok hopen]
  rw [if_pos hmethod, bind_ok hrecords]

/-- The fields of a request for an append. -/
structure AppendRequest (request : Json) (r : Record) (offset : ℕ) (hex : Bytes) : Prop where
  request_id : requestIdOf request = some r.requestId
  token : (request.get "token").asStr = some r.token.1
  offset_eq : (request.get "offset").asU64 = some offset
  data : (request.get "data").asStr = some hex

def nextOffset (requestId : Identity) (n : ℕ) : Json :=
  accepted requestId (.obj [("next_offset", .num n)])

/-- **True bytes are accepted** at any offset not beyond the stored length. -/
theorem dispatch_append_accepted (h : Sound d) (hwhole : Whole d) (hfault : c.fault = .none)
    (ht : t ∈ transfers d) (hlive : t.record.live c.now = true) (hbody : t.body <+: body)
    (hlength : body.length = t.record.length) {hex bytes : Bytes}
    (hrequest : AppendRequest request t.record offset hex) (hdecode : decodeChunk hex = some bytes)
    (hoffset : offset ≤ t.body.length) (htrue : bytes <+: body.drop offset) :
    ∃ after, dispatch validateBytes c "append" request d =
        .ok (nextOffset t.record.requestId (max t.body.length (offset + bytes.length))) after ∧
      ⟨t.record, body.take (max t.body.length (offset + bytes.length))⟩ ∈ transfers after := by
  obtain ⟨mid, hmid, hdispatch⟩ := dispatch_served validateBytes h hwhole hfault
    "append" (by decide) hrequest.request_id
  obtain ⟨after, happend, hstored⟩ := append_accepted hmid.sound hfault (hmid.mem_of_live h ht hlive)
    hlive hbody hlength hdecode hoffset htrue
  refine ⟨after, ?_, hstored⟩
  have hsmall : offset < 2 ^ 64 := by
    have := hbody.length_le
    have := t.record.length_le
    unfold MAX_INPUT_BYTES at this
    omega
  have htoken : required (request.get "token").asStr "candidate-token-invalid" mid =
      .ok t.record.token.1 mid := by rw [hrequest.token]; rfl
  have hnumber : required ((request.get "offset").asU64.filter fun n => n < 2 ^ 64)
      "candidate-number-invalid" mid = .ok offset mid := by
    rw [hrequest.offset_eq, filter_some, if_pos (by simpa using hsmall)]
    rfl
  have hdata : required (request.get "data").asStr "candidate-chunk-invalid" mid = .ok hex mid := by
    rw [hrequest.data]; rfl
  have hserve : serve validateBytes c "append" request t.record.requestId mid =
      .ok (.obj [("next_offset", .num (max t.body.length (offset + bytes.length) : ℕ))]) after := by
    unfold serve
    simp only
    rw [bind_ok htoken, bind_ok hnumber, bind_ok hdata, happend]
  rw [hdispatch, bind_ok hserve]
  rfl

theorem finish_ok (h : Sound d) (hfault : c.fault = .none) (ht : t ∈ transfers d)
    (hlive : t.record.live c.now = true) (hlength : t.body.length = t.record.length)
    (hdigest : digest t.body = t.record.digest) :
    ∃ after, finish validateBytes c t.record.token.1 t.record.requestId d =
      .ok (.obj [("validation",
        receipt t.record.requestId t.record.digest (validateBytes t.body))]) after := by
  obtain ⟨mtime, hfile, hload⟩ := load_ok h ht hlive
  have hdrop : (t.record.bytes ++ t.body).drop HEADER = t.body := by
    rw [drop_append_add (m := 0) _ _ (by simp), drop_zero]
  have htake : t.body.take (t.record.length + 1) = t.body := take_of_length_le (by omega)
  have hremove :
    remove c (fileName t.record.token) d = .ok () (d.unlink (fileName t.record.token)) := by
    unfold remove
    rw [refuseIf_bind (by rw [hfault]; exact fun h => by cases h)]
    rfl
  refine ⟨d.unlink (fileName t.record.token), ?_⟩
  unfold finish
  rw [bind_ok hload]
  simp only
  rw [refuseIf_bind (by rw [length_append, t.record.bytes_length, hlength]; exact not_not.2 rfl),
    bind_ok hremove, refuseIf_bind (by rw [hdrop, htake]; simp [hlength, hdigest]), hdrop, htake]
  rfl

/-- **A complete body is validated.** -/
theorem dispatch_finish_accepted (h : Sound d) (hwhole : Whole d) (hfault : c.fault = .none)
    (ht : t ∈ transfers d) (hlive : t.record.live c.now = true)
    (hlength : t.body.length = t.record.length) (hdigest : digest t.body = t.record.digest)
    (hrequest : requestIdOf request = some t.record.requestId)
    (htoken : (request.get "token").asStr = some t.record.token.1) :
    ∃ after, dispatch validateBytes c "finish" request d =
      .ok (accepted t.record.requestId (.obj [("validation",
        receipt t.record.requestId t.record.digest (validateBytes t.body))])) after := by
  obtain ⟨mid, hmid, hdispatch⟩ := dispatch_served validateBytes h hwhole hfault
    "finish" (by decide) hrequest
  obtain ⟨after, hfinish⟩ := finish_ok validateBytes hmid.sound hfault (hmid.mem_of_live h ht hlive)
    hlive hlength hdigest
  refine ⟨after, ?_⟩
  have hrequired : required (request.get "token").asStr "candidate-token-invalid" mid =
      .ok t.record.token.1 mid := by rw [htoken]; rfl
  have hserve : serve validateBytes c "finish" request t.record.requestId mid =
      .ok (.obj [("validation",
        receipt t.record.requestId t.record.digest (validateBytes t.body))]) after := by
    unfold serve
    simp only
    rw [bind_ok hrequired, hfinish]
  rw [hdispatch, bind_ok hserve]
  rfl

end CakeAutorate.Transfer
