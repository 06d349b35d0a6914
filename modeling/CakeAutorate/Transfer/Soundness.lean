/-
# Sound directories

A directory is sound when its names differ, every file is one that the store wrote, at most four
files are transfers or the start of one, and no two transfers are for one request. A new file, a
longer file and the scan keep that.
-/

import CakeAutorate.Transfer.Store
import Mathlib.Data.List.Nodup
import Mathlib.Data.List.Sublists

namespace CakeAutorate.Transfer

open Syscall List Entry Sublist

/-- A transfer: what its header says and the body stored so far. -/
structure Stored where
  record : Record
  body : Bytes

def Entry.stored? (e : Entry) : Option Stored :=
  (candidateToken e.name).bind fun token =>
    match Record.read e.content token with
    | .ok r => some ⟨r, e.content.drop HEADER⟩
    | .error _ => none

def transfers (d : Dir) : List Stored := d.filterMap stored?

def Entry.candidate (e : Entry) : Bool := (candidateToken e.name).isSome

/-- The files that the store writes: its lock, a header that was cut off, and a header
with a body. -/
inductive Entry.Written : Entry → Prop
  | lock (mtime : ℤ) : Entry.Written ⟨lockName, [], mtime⟩
  | cut (r : Record) (n : ℕ) (mtime : ℤ) (h : n < HEADER) :
      Entry.Written ⟨fileName r.token, r.bytes.take n, mtime⟩
  | whole (r : Record) (body : Bytes) (mtime : ℤ) (h : body.length ≤ r.length) :
      Entry.Written ⟨fileName r.token, r.bytes ++ body, mtime⟩

/-- A sound directory. -/
structure Sound (d : Dir) : Prop where
  names : (d.map name).Nodup
  written : ∀ e ∈ d, e.Written
  few : (d.filter candidate).length ≤ MAX_ACTIVE
  requests : ((transfers d).map fun t => t.record.requestId).Nodup

def Whole (d : Dir) : Prop := ∀ e ∈ d, e.candidate = true → e.stored?.isSome

@[simp] theorem stored?_lock (mtime : ℤ) : stored? ⟨lockName, [], mtime⟩ = none := by
  simp [stored?, candidateToken_lockName]

@[simp] theorem candidate_lock (mtime : ℤ) : candidate ⟨lockName, [], mtime⟩ = false := by
  simp [candidate, candidateToken_lockName]

@[simp] theorem candidate_fileName (t : Identity) (content : Bytes) (mtime : ℤ) :
    candidate ⟨fileName t, content, mtime⟩ = true := by
  simp [candidate]

@[simp] theorem stored?_whole (r : Record) (body : Bytes) (mtime : ℤ) :
    stored? ⟨fileName r.token, r.bytes ++ body, mtime⟩ = some ⟨r, body⟩ := by
  have hdrop : (r.bytes ++ body).drop HEADER = body := by
    rw [drop_append_add (m := 0) _ _ (by simp), drop_zero]
  simp [stored?, candidateToken_fileName, Record.read_bytes, hdrop]

theorem cut_length (r : Record) {n : ℕ} (h : n < HEADER) : (r.bytes.take n).length < HEADER := by
  rw [length_take]; omega

theorem stored?_cut (r : Record) {n : ℕ} (mtime : ℤ) (h : n < HEADER) :
    stored? ⟨fileName r.token, r.bytes.take n, mtime⟩ = none := by
  simp [stored?, candidateToken_fileName, Record.read_short (cut_length r h)]

variable {e : Entry} {t : Stored} {d : Dir} {r : Record} {mtime : ℤ}

theorem Entry.Written.of_stored? (h : e.Written) (ht : e.stored? = some t) :
    e.name = fileName t.record.token ∧ e.content = t.record.bytes ++ t.body ∧
      t.body.length ≤ t.record.length := by
  cases h with
  | lock mtime => simp at ht
  | cut r n mtime h => rw [stored?_cut r mtime h] at ht; cases ht
  | whole r body mtime h =>
    rw [stored?_whole, Option.some.injEq] at ht
    subst ht
    exact ⟨rfl, rfl, h⟩

theorem mem_transfers : t ∈ transfers d ↔ ∃ e ∈ d, e.stored? = some t := mem_filterMap

theorem Sound.nil : Sound [] := ⟨nodup_nil, by simp, by simp, nodup_nil⟩

theorem Sound.sublist {d' : Dir} (h : Sound d) (hsub : d'.Sublist d) : Sound d' where
  names := h.names.sublist (hsub.map _)
  written e he := h.written e (hsub.subset he)
  few := (hsub.filter _).length_le.trans h.few
  requests := h.requests.sublist ((hsub.filterMap _).map _)

theorem transfers_sublist {d' : Dir} (hsub : d'.Sublist d) :
    (transfers d').Sublist (transfers d) := hsub.filterMap _

theorem Sound.entry_unique (h : Sound d) {e' : Entry} (he : e ∈ d) (he' : e' ∈ d)
    (hname : e.name = e'.name) : e = e' :=
  inj_on_of_nodup_map h.names he he' hname

theorem Sound.file (h : Sound d) (ht : t ∈ transfers d) :
    ∃ mtime, ⟨fileName t.record.token, t.record.bytes ++ t.body, mtime⟩ ∈ d ∧
      t.body.length ≤ t.record.length := by
  obtain ⟨e, he, hstored⟩ := mem_transfers.1 ht
  obtain ⟨hname, hcontent, hfits⟩ := (h.written e he).of_stored? hstored
  refine ⟨e.mtime, ?_, hfits⟩
  rw [← hname, ← hcontent]
  exact he

theorem Sound.token_unique (h : Sound d) {u : Stored} (ht : t ∈ transfers d) (hu : u ∈ transfers d)
    (htoken : t.record.token = u.record.token) : t = u := by
  obtain ⟨e, he, hte⟩ := mem_transfers.1 ht
  obtain ⟨e', he', hue⟩ := mem_transfers.1 hu
  have hname : e.name = e'.name := by
    rw [((h.written e he).of_stored? hte).1, ((h.written e' he').of_stored? hue).1, htoken]
  rw [h.entry_unique he he' hname, hue, Option.some.injEq] at hte
  exact hte.symm

theorem find_eq_some {name : Bytes} (h : d.find name = some e) : e ∈ d ∧ e.name = name := by
  refine ⟨mem_of_find?_eq_some h, ?_⟩
  simpa using find?_some h

theorem find_eq_none {name : Bytes} (h : d.find name = none) : ∀ e ∈ d, e.name ≠ name := by
  simpa [Dir.find] using h

theorem Sound.find_mem (h : Sound d) (he : e ∈ d) : d.find e.name = some e := by
  cases hfind : d.find e.name with
  | none => exact absurd rfl (find_eq_none hfind e he)
  | some e' =>
    obtain ⟨hmem, hname⟩ := find_eq_some hfind
    rw [h.entry_unique hmem he hname]

theorem Sound.length_le (h : Sound d) : d.length ≤ MAX_ACTIVE + 1 := by
  have hsplit : d.length = (d.filter candidate).length + (d.filter fun e => !e.candidate).length :=
    length_eq_length_filter_add _
  have hlock : ∀ e ∈ d.filter fun e => !e.candidate, e.name = lockName := by
    intro e he
    obtain ⟨hmem, hforeign⟩ := mem_filter.1 he
    cases h.written e hmem with
    | lock mtime => rfl
    | cut r n mtime hn => simp at hforeign
    | whole r body mtime hbody => simp at hforeign
  have hnames : ((d.filter fun e => !e.candidate).map name).Nodup :=
    h.names.sublist (filter_sublist.map _)
  have hall : (d.filter fun e => !e.candidate).map name =
      List.replicate (d.filter fun e => !e.candidate).length lockName := by
    rw [eq_replicate_iff]
    refine ⟨length_map _, fun name hname => ?_⟩
    obtain ⟨e, he, rfl⟩ := mem_map.1 hname
    exact hlock e he
  rw [hall, nodup_replicate] at hnames
  have := h.few
  omega

theorem Whole.sublist {d' : Dir} (h : Whole d) (hsub : d'.Sublist d) : Whole d' :=
  fun e he => h e (hsub.subset he)

theorem create_perm (d : Dir) (position : ℕ) (e : Entry) : (d.create position e).Perm (e :: d) := by
  calc (d.take position ++ e :: d.drop position).Perm (e :: (d.take position ++ d.drop position)) :=
        perm_middle
    _ = e :: d := by rw [take_append_drop]

theorem mem_create {position : ℕ} {e' : Entry} : e' ∈ d.create position e ↔ e' = e ∨ e' ∈ d := by
  rw [(create_perm d position e).mem_iff, mem_cons]

theorem Sound.create (h : Sound d) (position : ℕ) (hwritten : e.Written)
    (hname : ∀ e' ∈ d, e'.name ≠ e.name)
    (hroom : e.candidate = true → (d.filter candidate).length < MAX_ACTIVE)
    (hrequest : ∀ t, e.stored? = some t → ∀ u ∈ transfers d, u.record.requestId ≠ t.record.requestId) :
    Sound (d.create position e) where
  names := by
    rw [((create_perm d position e).map _).nodup_iff, map_cons, nodup_cons]
    refine ⟨fun hmem => ?_, h.names⟩
    obtain ⟨e', he', heq⟩ := mem_map.1 hmem
    exact hname e' he' heq
  written e' he' := by
    rcases mem_create.1 he' with rfl | he'
    · exact hwritten
    · exact h.written e' he'
  few := by
    rw [((create_perm d position e).filter _).length_eq, filter_cons]
    split
    · rename_i hcandidate
      have := hroom hcandidate
      rw [length_cons]
      omega
    · exact h.few
  requests := by
    have hperm := ((create_perm d position e).filterMap stored?).map fun t => t.record.requestId
    rw [transfers, hperm.nodup_iff, filterMap_cons]
    cases hstored : e.stored? with
    | none => exact h.requests
    | some t =>
      rw [map_cons, nodup_cons]
      refine ⟨fun hmem => ?_, h.requests⟩
      obtain ⟨u, hu, heq⟩ := mem_map.1 hmem
      exact hrequest t hstored u hu heq

theorem mem_transfers_create {position : ℕ} :
    t ∈ transfers (d.create position e) ↔ e.stored? = some t ∨ t ∈ transfers d := by
  simp only [mem_transfers, mem_create]
  constructor
  · rintro ⟨e', rfl | he', hstored⟩
    · exact .inl hstored
    · exact .inr ⟨e', he', hstored⟩
  · rintro (hstored | ⟨e', he', hstored⟩)
    · exact ⟨e, .inl rfl, hstored⟩
    · exact ⟨e', .inr he', hstored⟩

theorem mem_extend {name bytes : Bytes} {stamp : ℤ} {e' : Entry} :
    e' ∈ d.extend name bytes stamp ↔ ∃ e ∈ d, e' =
      if e.name = name then { e with content := e.content ++ bytes, mtime := stamp } else e := by
  simp only [Dir.extend, mem_map, eq_comm]

variable {body : Bytes}

section

variable (h : Sound d) (hfile : ⟨fileName r.token, r.bytes ++ body, mtime⟩ ∈ d)
include h hfile

theorem stored?_extend (bytes : Bytes) (stamp : ℤ) (he : e ∈ d) :
    (if e.name = fileName r.token then { e with content := e.content ++ bytes, mtime := stamp }
      else e).stored? = e.stored?.map fun t =>
        if t.record.token = r.token then ⟨t.record, t.body ++ bytes⟩ else t := by
  by_cases hname : e.name = fileName r.token
  · have heq := h.entry_unique he hfile hname
    subst heq
    simp [stored?_whole]
  · rw [if_neg hname]
    cases hstored : e.stored? with
    | none => rfl
    | some t =>
      obtain ⟨htname, -, -⟩ := (h.written e he).of_stored? hstored
      have htoken : t.record.token ≠ r.token := by
        intro heq
        rw [heq] at htname
        exact hname htname
      rw [Option.map_some, if_neg htoken]

theorem transfers_extend (bytes : Bytes) (stamp : ℤ) :
    transfers (d.extend (fileName r.token) bytes stamp) = (transfers d).map fun t =>
      if t.record.token = r.token then ⟨t.record, t.body ++ bytes⟩ else t := by
  unfold transfers Dir.extend
  rw [filterMap_map, map_filterMap]
  refine filterMap_congr fun e he => ?_
  exact stored?_extend h hfile bytes stamp he

theorem Sound.extend {bytes : Bytes} (stamp : ℤ) (hfits : (body ++ bytes).length ≤ r.length) :
    Sound (d.extend (fileName r.token) bytes stamp) where
  names := by
    have hnames : (d.extend (fileName r.token) bytes stamp).map name = d.map name := by
      rw [Dir.extend, map_map]
      refine map_congr_left fun e _ => ?_
      simp only [Function.comp]
      split <;> rfl
    rw [hnames]
    exact h.names
  written e' he' := by
    obtain ⟨e, he, rfl⟩ := mem_extend.1 he'
    split
    · rename_i hname
      have heq := h.entry_unique he hfile hname
      subst heq
      simp only [append_assoc]
      exact .whole r (body ++ bytes) stamp hfits
    · exact h.written e he
  few := by
    have hcount : ((d.extend (fileName r.token) bytes stamp).filter candidate).length =
        (d.filter candidate).length := by
      rw [Dir.extend, filter_map, length_map]
      refine congrArg List.length (filter_congr fun e _ => ?_)
      simp only [Function.comp, candidate]
      split <;> rfl
    rw [hcount]
    exact h.few
  requests := by
    have hsame : ∀ t : Stored, (if t.record.token = r.token then (⟨t.record, t.body ++ bytes⟩ : Stored)
        else t).record.requestId = t.record.requestId := by
      intro t
      split <;> rfl
    rw [transfers_extend h hfile, map_map]
    simp only [Function.comp_def, hsame]
    exact h.requests

end

theorem Whole.extend (hwhole : Whole d) (h : Sound d)
    (hfile : ⟨fileName r.token, r.bytes ++ body, mtime⟩ ∈ d) (bytes : Bytes) (stamp : ℤ) :
    Whole (d.extend (fileName r.token) bytes stamp) := by
  intro e' he' hcandidate
  obtain ⟨e, he, rfl⟩ := mem_extend.1 he'
  rw [stored?_extend h hfile bytes stamp he, Option.isSome_map]
  refine hwhole e he ?_
  split at hcandidate
  · exact hcandidate
  · exact hcandidate

@[simp] theorem inspect_lock (now : UInt64) (wall mtime : ℤ) :
    inspect now wall ⟨lockName, [], mtime⟩ = .ok .foreign := by
  simp [inspect, candidateToken_lockName]

theorem inspect_whole (now : UInt64) (wall : ℤ) (mtime : ℤ) (h : body.length ≤ r.length) :
    inspect now wall ⟨fileName r.token, r.bytes ++ body, mtime⟩ =
      if r.live now then .ok (.live r) else .ok .retired := by
  have hlong : ¬ (r.bytes ++ body).length < HEADER := by simp
  have hfits : ¬ HEADER + r.length < (r.bytes ++ body).length := by
    rw [length_append, r.bytes_length]; omega
  simp only [inspect, candidateToken_fileName, if_neg hlong, Record.read_bytes, if_neg hfits]

theorem inspect_cut (now : UInt64) (wall : ℤ) (r : Record) {n : ℕ} (mtime : ℤ) (h : n < HEADER) :
    inspect now wall ⟨fileName r.token, r.bytes.take n, mtime⟩ = .ok .retired ∨
      ∃ code, inspect now wall ⟨fileName r.token, r.bytes.take n, mtime⟩ = .error code := by
  simp only [inspect, candidateToken_fileName, if_pos (cut_length r h)]
  split
  · exact .inr ⟨_, rfl⟩
  split
  · exact .inr ⟨_, rfl⟩
  split
  · exact .inl rfl
  · exact .inr ⟨_, rfl⟩

theorem scan_sublist (c : Call) (index : ℕ) (d : Dir) : (scan c index d).1.Sublist d := by
  induction d generalizing index with
  | nil => exact refl _
  | cons e rest ih =>
    unfold scan
    split
    · exact refl _
    split
    · exact refl _
    split
    · exact refl _
    · exact (ih (index + 1)).cons_cons e
    · exact (ih (index + 1)).cons e
    · exact (ih (index + 1)).cons_cons e

theorem scan_keeps (c : Call) (index : ℕ) (he : e ∈ d) (h : inspect c.now c.wall e ≠ .ok .retired) :
    e ∈ (scan c index d).1 := by
  induction d generalizing index with
  | nil => simp at he
  | cons e' rest ih =>
    unfold scan
    split
    · exact he
    split
    · exact he
    rcases mem_cons.1 he with rfl | he
    · split
      · exact mem_cons_self
      · exact mem_cons_self
      · rename_i hretired
        exact absurd hretired h
      · exact mem_cons_self
    · split
      · exact mem_cons_of_mem _ he
      · exact mem_cons_of_mem _ (ih (index + 1) he)
      · exact ih (index + 1) he
      · exact mem_cons_of_mem _ (ih (index + 1) he)

theorem scan_ok {c : Call} {index : ℕ} (hw : ∀ e ∈ d, e.Written) {rs : List Record}
    (h : (scan c index d).2 = .ok rs) :
    rs = (transfers (scan c index d).1).map Stored.record ∧ (∀ r ∈ rs, r.live c.now = true) ∧
      ((scan c index d).1.filter candidate).length = rs.length := by
  induction d generalizing index rs with
  | nil =>
    obtain rfl : [] = rs := Except.ok.inj h
    exact ⟨rfl, by simp, rfl⟩
  | cons e rest ih =>
    have hrest : ∀ e' ∈ rest, e'.Written := fun e' he' => hw e' (mem_cons_of_mem _ he')
    unfold scan at h ⊢
    split at h
    · cases h
    rename_i hscan
    split at h
    · cases h
    rename_i hindex
    rw [if_neg hscan, if_neg hindex]
    cases hw e mem_cons_self with
    | lock mtime =>
      simp only [inspect_lock] at h ⊢
      obtain ⟨hrs, hlive, hcount⟩ := ih hrest h
      refine ⟨?_, hlive, ?_⟩
      · rw [hrs, transfers, transfers, filterMap_cons, stored?_lock]
      · rw [filter_cons, candidate_lock]
        exact hcount
    | cut r n mtime hn =>
      rcases inspect_cut c.now c.wall r mtime hn with hinspect | ⟨code, hinspect⟩
      · simp only [hinspect] at h ⊢
        exact ih hrest h
      · simp only [hinspect] at h
        cases h
    | whole r body mtime hbody =>
      rw [inspect_whole c.now c.wall mtime hbody] at h ⊢
      by_cases hr : r.live c.now = true
      · simp only [if_pos hr] at h ⊢
        cases hafter : (scan c (index + 1) rest).2 with
        | error code => rw [hafter] at h; cases h
        | ok rs' =>
          rw [hafter] at h
          obtain rfl : r :: rs' = rs := Except.ok.inj h
          obtain ⟨hrs, hlive, hcount⟩ := ih hrest hafter
          refine ⟨?_, ?_, ?_⟩
          · rw [hrs, transfers, transfers, filterMap_cons, stored?_whole, map_cons]
          · intro r' hr'
            rcases mem_cons.1 hr' with rfl | hr'
            · exact hr
            · exact hlive r' hr'
          · rw [filter_cons, candidate_fileName, if_pos rfl, length_cons, hcount, length_cons]
      · simp only [if_neg hr] at h ⊢
        exact ih hrest h

theorem Sound.scan_live (h : Sound d) (c : Call) (index : ℕ) (ht : t ∈ transfers d)
    (hlive : t.record.live c.now = true) : t ∈ transfers (scan c index d).1 := by
  obtain ⟨mtime, hfile, hfits⟩ := h.file ht
  refine mem_transfers.2 ⟨_, scan_keeps c index hfile ?_, stored?_whole _ _ _⟩
  rw [inspect_whole c.now c.wall mtime hfits, if_pos hlive]
  exact nofun

theorem scan_complete {c : Call} (index : ℕ) (hw : ∀ e ∈ d, e.Written) (hwhole : Whole d)
    (hfault : ∀ n, c.fault ≠ .scan n) (hfew : index + d.length ≤ MAX_SCAN) :
    ∃ rs, (scan c index d).2 = .ok rs := by
  induction d generalizing index with
  | nil => exact ⟨[], rfl⟩
  | cons e rest ih =>
    rw [length_cons] at hfew
    obtain ⟨rs, hrs⟩ := ih (index + 1) (fun e' he' => hw e' (mem_cons_of_mem _ he'))
      (fun e' he' => hwhole e' (mem_cons_of_mem _ he')) (by omega)
    unfold scan
    rw [if_neg (hfault index), if_neg (by omega)]
    cases hw e mem_cons_self with
    | lock mtime =>
      exact ⟨rs, hrs⟩
    | cut r n mtime hn =>
      have hsome := hwhole _ mem_cons_self (candidate_fileName _ _ _)
      rw [stored?_cut r mtime hn] at hsome
      cases hsome
    | whole r body mtime hbody =>
      rw [inspect_whole c.now c.wall mtime hbody]
      by_cases hr : r.live c.now = true
      · simp only [if_pos hr, hrs]
        exact ⟨r :: rs, rfl⟩
      · simp only [if_neg hr]
        exact ⟨rs, hrs⟩

end CakeAutorate.Transfer
