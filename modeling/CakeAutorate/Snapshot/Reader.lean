/-
# What a snapshot proves

`attest_route_pin_snapshot`, `nft_table_snapshot_proves_absence` and `cleanup_named_route_pin_with`
of `owned_route_rules.rs`.  A snapshot that the scan lets through has no key twice, so what serde
keeps of it is all of it: the answers hold of every member that the text has.
-/

import CakeAutorate.Snapshot.Json
import Mathlib.Data.List.Dedup

namespace CakeAutorate.Snapshot

open List Option Value
open Syscall (Bytes ascii)

/-- `Map::get`, of the map that keeps the last of two members. -/
def lastOf (members : List (Bytes × Value)) (key : Bytes) : Option Value :=
  (members.reverse.find? fun m => m.1 = key).map Prod.snd

/-- `as_object`, of a map with one key. -/
def Value.single : Value → Option (List (Bytes × Value))
  | .obj members => if (members.map Prod.fst).dedup.length = 1 then some members else none
  | _ => none

/-- `Value::get`. -/
def Value.get : Value → Bytes → Option Value
  | .obj members, key => lastOf members key
  | _, _ => none

def Value.asStr : Value → Option Bytes
  | .str s => some s
  | _ => none

def Value.asArray : Value → Option (List Value)
  | .arr items => some items
  | _ => none

/-- `Value::as_u64`. -/
def Words.u64 (words : Words) : Value → Option ℕ
  | .scalar raw => words.asU64 raw
  | _ => none

def Value.strAt (v : Value) (key : Bytes) : Option Bytes := (v.get key).bind asStr

/-- The entries of a document whose only key is `nftables`. -/
def Value.entries (v : Value) : Option (List Value) :=
  (v.single.bind fun members => lastOf members (ascii "nftables")).bind asArray

/-- `speedtest-route-pin-owner-mismatch`. -/
def mismatch : Failure := .error "speedtest-route-pin-owner-mismatch"

/-- The loop of `attest_route_pin_snapshot`, with the handle that was found. -/
def attestEntries (words : Words) (table owner : Bytes) :
    List Value → Option ℕ → Except Failure (Option ℕ)
  | [], handle => .ok handle
  | entry :: rest, handle =>
    match entry.single with
    | none => .error mismatch
    | some members =>
      match lastOf members (ascii "table") with
      | none => attestEntries words table owner rest handle
      | some t =>
        if handle.isSome ∨ t.strAt (ascii "family") ≠ some (ascii "inet")
            ∨ t.strAt (ascii "name") ≠ some table ∨ t.strAt (ascii "comment") ≠ some owner then
          .error mismatch
        else
          match (t.get (ascii "handle")).bind words.u64 with
          | none | some 0 => .error (.error "speedtest-route-pin-handle-invalid")
          | some handle => attestEntries words table owner rest (some handle)

def attestRoutePinSnapshot (serde : Serde) (input expectedTable expectedOwner : Bytes) :
    Except Failure ℕ :=
  match parseNftSnapshot serde input with
  | .error failure => .error failure
  | .ok v =>
    if expectedTable.isEmpty ∨ expectedOwner.isEmpty then .error mismatch
    else
      match v.entries with
      | none => .error mismatch
      | some entries =>
        match attestEntries serde.toWords expectedTable expectedOwner entries none with
        | .error failure => .error failure
        | .ok none => .error mismatch
        | .ok (some handle) => .ok handle

/-- `speedtest-route-pin-tables-json-invalid`. -/
def tablesInvalid : Failure := .error "speedtest-route-pin-tables-json-invalid"

/-- The loop of `nft_table_snapshot_proves_absence`. -/
def absentEntries (table : Bytes) : List Value → Except Failure Bool
  | [] => .ok true
  | entry :: rest =>
    match entry.single with
    | none => .error tablesInvalid
    | some members =>
      match lastOf members (ascii "table") with
      | some t =>
        match t.strAt (ascii "family"), t.strAt (ascii "name") with
        | some family, some name =>
          if family.isEmpty ∨ name.isEmpty then .error tablesInvalid
          else if family = ascii "inet" ∧ name = table then .ok false
          else absentEntries table rest
        | _, _ => .error tablesInvalid
      | none =>
        match lastOf members (ascii "metainfo") with
        | some (.obj _) => absentEntries table rest
        | _ => .error tablesInvalid

def nftTableSnapshotProvesAbsence (serde : Serde) (input expectedTable : Bytes) :
    Except Failure Bool :=
  match parseNftSnapshot serde input with
  | .error .panicked => .error .panicked
  | .error (.error _) => .error tablesInvalid
  | .ok v =>
    match v.entries with
    | none => .error tablesInvalid
    | some entries => absentEntries expectedTable entries

def nftTableSnapshotArguments (table : Bytes) : List Bytes :=
  [ascii "-j", ascii "-t", ascii "list", ascii "table", ascii "inet", table]

def listTables : List Bytes := [ascii "-j", ascii "list", ascii "tables"]

def deleteHandle (handle : ℕ) : List Bytes :=
  [ascii "delete", ascii "table", ascii "inet", ascii "handle", ascii (toString handle)]

/-- The commands that a clean-up has run, and its result. -/
structure Cleanup where
  commands : List (List Bytes)
  result : Except Failure Unit

/-- Whether the answer to `list tables` proves that the table is absent. -/
def absentAfter (serde : Serde) (table : Bytes) (message : String) :
    Except Failure (Bool × Bytes) → Except Failure Unit
  | .error failure => .error failure
  | .ok (false, _) => .error (.error message)
  | .ok (true, text) =>
    match nftTableSnapshotProvesAbsence serde text table with
    | .error failure => .error failure
    | .ok absent => if absent then .ok () else .error (.error message)

/-- `cleanup_named_route_pin_with`: the answers of nft are given by the number of the call. -/
def cleanupNamedRoutePinWith (serde : Serde) (table owner : Bytes)
    (execute : ℕ → List Bytes → Except Failure (Bool × Bytes)) : Cleanup :=
  let list := nftTableSnapshotArguments table
  match execute 0 list with
  | .error failure => ⟨[list], .error failure⟩
  | .ok (false, _) =>
    ⟨[list, listTables], absentAfter serde table "speedtest-route-pin-inspection-failed"
      (execute 1 listTables)⟩
  | .ok (true, listed) =>
    match attestRoutePinSnapshot serde listed table owner with
    | .error failure => ⟨[list], .error failure⟩
    | .ok handle =>
      let delete := deleteHandle handle
      match execute 1 delete with
      | .error failure => ⟨[list, delete], .error failure⟩
      | .ok (false, _) => ⟨[list, delete], .error (.error "speedtest-route-pin-delete-failed")⟩
      | .ok (true, _) =>
        match execute 2 list with
        | .error failure => ⟨[list, delete, list], .error failure⟩
        | .ok (true, _) =>
          ⟨[list, delete, list], .error (.error "speedtest-route-pin-delete-unverified")⟩
        | .ok (false, _) =>
          ⟨[list, delete, list, listTables], absentAfter serde table
            "speedtest-route-pin-delete-unverified" (execute 3 listTables)⟩

def Value.Has (v : Value) (key : Bytes) (w : Value) : Prop :=
  ∃ members, v = .obj members ∧ (key, w) ∈ members

def Value.ListsTable (v : Value) (table : Bytes) : Prop :=
  ∃ items entry t, v.Has (ascii "nftables") (.arr items) ∧ entry ∈ items ∧
    entry.Has (ascii "table") t ∧ t.Has (ascii "family") (.str (ascii "inet")) ∧
    t.Has (ascii "name") (.str table)

def Words.ListsOnly (words : Words) (v : Value) (table owner : Bytes) (handle : ℕ) : Prop :=
  ∃ before t after raw,
    v = .obj [(ascii "nftables", .arr (before ++ .obj [(ascii "table", t)] :: after))] ∧
    (∀ entry ∈ before ++ after, ∀ w, ¬entry.Has (ascii "table") w) ∧
    t.Has (ascii "family") (.str (ascii "inet")) ∧ t.Has (ascii "name") (.str table) ∧
    t.Has (ascii "comment") (.str owner) ∧ t.Has (ascii "handle") (.scalar raw) ∧
    words.asU64 raw = some handle ∧ handle ≠ 0

variable {serde : Serde} {input table owner key : Bytes} {v w : Value} {depth handle : ℕ}
  {members : List (Bytes × Value)}

theorem lastOf_iff (hnodup : (members.map Prod.fst).Nodup) :
    lastOf members key = some w ↔ (key, w) ∈ members := by
  constructor
  · intro h
    obtain ⟨⟨k, x⟩, hfind, rfl⟩ := map_eq_some_iff.mp h
    have hkey : k = key := by simpa using find?_some hfind
    exact hkey ▸ mem_reverse.mp (mem_of_find?_eq_some hfind)
  · intro h
    unfold lastOf
    cases hfind : members.reverse.find? fun m => m.1 = key with
    | none =>
      have hnone := find?_eq_none.mp hfind _ (mem_reverse.mpr h)
      simp at hnone
    | some m =>
      have hkey : m.1 = key := by simpa using find?_some hfind
      have hmem := mem_reverse.mp (mem_of_find?_eq_some hfind)
      rw [map_some, inj_on_of_nodup_map hnodup hmem h hkey]

theorem get_iff (hwithin : Within depth v) : v.get key = some w ↔ v.Has key w := by
  cases hwithin with
  | obj hkeys _ =>
    refine (lastOf_iff hkeys.nodup).trans ⟨fun h => ⟨_, rfl, h⟩, ?_⟩
    rintro ⟨_, ⟨⟩, hmem⟩
    exact hmem
  | scalar | str | arr =>
    refine iff_of_false nofun ?_
    rintro ⟨_, ⟨⟩, _⟩

theorem strAt_iff {s : Bytes} (hwithin : Within depth v) :
    v.strAt key = some s ↔ v.Has key (.str s) := by
  rw [← get_iff hwithin]
  constructor
  · intro h
    obtain ⟨x, hget, hstr⟩ := bind_eq_some_iff.mp h
    cases x <;> cases hstr
    exact hget
  · intro h
    rw [strAt, h]
    rfl

theorem single_eq (hwithin : Within depth v) (h : v.single = some members) :
    ∃ key w depth', v = .obj [(key, w)] ∧ members = [(key, w)] ∧ Within depth' w := by
  cases hwithin with
  | scalar | str | arr => cases h
  | @obj _ all hkeys hall =>
    rw [single] at h
    split at h
    · rename_i hone
      cases h
      rw [hkeys.nodup.dedup, length_map] at hone
      obtain ⟨⟨key, w⟩, rfl⟩ := length_eq_one_iff.mp hone
      exact ⟨key, w, _, rfl, rfl, hall _ mem_cons_self⟩
    · cases h

theorem lastOf_singleton {name : Bytes} :
    lastOf [(key, w)] name = if key = name then some w else none := by
  by_cases h : key = name <;> simp [lastOf, h]

theorem has_singleton {name : Bytes} {x : Value} :
    (obj [(key, w)]).Has name x ↔ name = key ∧ x = w := by
  simp [Value.Has]

theorem entries_eq {items : List Value} (hwithin : Within depth v) (h : v.entries = some items) :
    v = .obj [(ascii "nftables", .arr items)] ∧ ∃ depth, ∀ entry ∈ items, Within depth entry := by
  obtain ⟨found, hlast, hitems⟩ := bind_eq_some_iff.mp h
  obtain ⟨members, hsingle, hlast⟩ := bind_eq_some_iff.mp hlast
  obtain ⟨key, w, depth', rfl, rfl, hw⟩ := single_eq hwithin hsingle
  rw [lastOf_singleton] at hlast
  split at hlast
  · rename_i hkey
    cases hlast
    cases found <;> cases hitems
    exact ⟨by rw [hkey], depth', within_arr.mp hw⟩
  · cases hlast

theorem parseNftSnapshot_ok (h : parseNftSnapshot serde input = .ok v) :
    serde.fromSlice input = some v ∧ serde.Document v input ∧ Within 16 v := by
  unfold parseNftSnapshot at h
  split at h
  · cases h
  · split at h
    · cases h
    · rename_i x hread
      have hdocument := serde.fromSlice_document _ _ hread
      cases hscan : scan serde input [] with
      | error failure =>
        rw [hscan] at h
        cases h
      | ok =>
        rw [hscan] at h
        cases h
        exact ⟨hread, hdocument, (scan_document hdocument).mp hscan⟩

/-- **Which bytes are accepted.** -/
theorem parseNftSnapshot_iff :
    (∃ v, parseNftSnapshot serde input = .ok v) ↔
      input.length ≤ maxSnapshotBytes ∧ ∃ v, serde.Document v input ∧ Within 16 v := by
  constructor
  · rintro ⟨v, h⟩
    obtain ⟨-, hdocument, hwithin⟩ := parseNftSnapshot_ok h
    refine ⟨?_, v, hdocument, hwithin⟩
    by_contra hlong
    rw [parseNftSnapshot, if_pos (by omega)] at h
    cases h
  · rintro ⟨hle, v, hdocument, hwithin⟩
    obtain ⟨v', hread⟩ := serde.document_fromSlice _ _ hdocument
    refine ⟨v', ?_⟩
    rw [parseNftSnapshot, if_neg (by omega), hread]
    rw [(scan_document hdocument).mpr hwithin]
    rfl

theorem parseNftSnapshot_ne_panicked : parseNftSnapshot serde input ≠ .error .panicked := by
  unfold parseNftSnapshot
  split
  · intro h
    cases h
  · split
    · intro h
      cases h
    · cases hscan : scan serde input [] with
      | ok =>
        intro h
        cases h
      | error failure =>
        intro h
        cases h
        exact scan_ne_panicked serde input [] hscan

variable {entries : List Value}

theorem absentEntries_true (hwithin : ∀ entry ∈ entries, Within depth entry)
    (h : absentEntries table entries = .ok true) :
    ∀ entry ∈ entries, ∀ t, entry.Has (ascii "table") t →
      ¬(t.Has (ascii "family") (.str (ascii "inet")) ∧ t.Has (ascii "name") (.str table)) := by
  induction entries with
  | nil => intro entry hentry; cases hentry
  | cons entry rest ih =>
    obtain ⟨hentry, hrest⟩ := forall_mem_cons.mp hwithin
    rw [absentEntries] at h
    split at h
    · cases h
    · rename_i members hsingle
      obtain ⟨key, w, depth', rfl, rfl, hw⟩ := single_eq hentry hsingle
      rw [lastOf_singleton] at h
      refine forall_mem_cons.mpr ?_
      by_cases hkey : key = ascii "table"
      · rw [if_pos hkey] at h
        dsimp only at h
        split at h
        · rename_i family name hfamily hname
          split at h
          · cases h
          · split at h
            · cases h
            · rename_i hother
              refine ⟨?_, ih hrest h⟩
              rintro t ht ⟨hinet, htable⟩
              obtain ⟨-, rfl⟩ := has_singleton.mp ht
              rw [(strAt_iff hw).mpr hinet] at hfamily
              rw [(strAt_iff hw).mpr htable] at hname
              exact hother ⟨(some.inj hfamily).symm, (some.inj hname).symm⟩
        · cases h
      · rw [if_neg hkey] at h
        dsimp only at h
        refine ⟨fun t ht => absurd (has_singleton.mp ht).1.symm hkey, ?_⟩
        split at h
        · exact ih hrest h
        · cases h

/-- **Absence** is proved only by a document that does not list the table. -/
theorem proves_absence (h : nftTableSnapshotProvesAbsence serde input table = .ok true) :
    ∃ v, serde.fromSlice input = some v ∧ serde.Document v input ∧ Within 16 v ∧
      ¬v.ListsTable table := by
  unfold nftTableSnapshotProvesAbsence at h
  split at h
  · cases h
  · cases h
  · rename_i v hparse
    obtain ⟨hread, hdocument, hwithin⟩ := parseNftSnapshot_ok hparse
    split at h
    · cases h
    · rename_i entries hentries
      obtain ⟨rfl, depth, hall⟩ := entries_eq hwithin hentries
      refine ⟨_, hread, hdocument, hwithin, ?_⟩
      rintro ⟨items, entry, t, hitems, hentry, ht, hlisted⟩
      obtain ⟨-, hitems⟩ := has_singleton.mp hitems
      cases hitems
      exact absentEntries_true hall h entry hentry t ht hlisted

theorem attestEntries_some {found : Option ℕ} (hwithin : ∀ entry ∈ entries, Within depth entry)
    (h : attestEntries serde.toWords table owner entries (some handle) = .ok found) :
    found = some handle ∧ ∀ entry ∈ entries, ∀ w, ¬entry.Has (ascii "table") w := by
  induction entries with
  | nil =>
    cases h
    exact ⟨rfl, fun entry hentry => by cases hentry⟩
  | cons entry rest ih =>
    obtain ⟨hentry, hrest⟩ := forall_mem_cons.mp hwithin
    rw [attestEntries] at h
    split at h
    · cases h
    · rename_i members hsingle
      obtain ⟨key, w, depth', rfl, rfl, hw⟩ := single_eq hentry hsingle
      rw [lastOf_singleton] at h
      by_cases hkey : key = ascii "table"
      · rw [if_pos hkey] at h
        dsimp only at h
        cases h
      · rw [if_neg hkey] at h
        obtain ⟨hfound, hnone⟩ := ih hrest h
        exact ⟨hfound, forall_mem_cons.mpr ⟨fun t ht => hkey (has_singleton.mp ht).1.symm, hnone⟩⟩

theorem attestEntries_none (hwithin : ∀ entry ∈ entries, Within depth entry)
    (h : attestEntries serde.toWords table owner entries none = .ok (some handle)) :
    serde.ListsOnly (.obj [(ascii "nftables", .arr entries)]) table owner handle := by
  induction entries with
  | nil => cases h
  | cons entry rest ih =>
    obtain ⟨hentry, hrest⟩ := forall_mem_cons.mp hwithin
    rw [attestEntries] at h
    split at h
    · cases h
    · rename_i members hsingle
      obtain ⟨key, t, depth', rfl, rfl, ht⟩ := single_eq hentry hsingle
      rw [lastOf_singleton] at h
      by_cases hkey : key = ascii "table"
      · rw [if_pos hkey] at h
        dsimp only at h
        split at h
        · cases h
        · rename_i hgood
          simp only [not_or, Decidable.not_not] at hgood
          obtain ⟨-, hfamily, hname, hcomment⟩ := hgood
          split at h
          · cases h
          · cases h
          · rename_i found hzero hfound
            obtain ⟨x, hget, hu64⟩ := bind_eq_some_iff.mp hfound
            obtain ⟨hhandle, hnone⟩ := attestEntries_some hrest h
            cases hhandle
            cases x with
            | scalar raw =>
              exact ⟨[], t, rest, raw, by rw [hkey]; rfl, hnone, (strAt_iff ht).mp hfamily,
                (strAt_iff ht).mp hname, (strAt_iff ht).mp hcomment, (get_iff ht).mp hget, hu64,
                hzero⟩
            | str | arr | obj => cases hu64
      · rw [if_neg hkey] at h
        obtain ⟨before, t', after, raw, hrest', hnone, hlisted⟩ := ih hrest h
        cases hrest'
        refine ⟨.obj [(key, t)] :: before, t', after, raw, rfl, ?_, hlisted⟩
        exact forall_mem_cons.mpr ⟨fun w hw => hkey (has_singleton.mp hw).1.symm, hnone⟩

/-- **A handle** is attested only by a document whose only table entry has it. -/
theorem attests_handle (h : attestRoutePinSnapshot serde input table owner = .ok handle) :
    ∃ v, serde.fromSlice input = some v ∧ serde.Document v input ∧ Within 16 v ∧
      serde.ListsOnly v table owner handle := by
  unfold attestRoutePinSnapshot at h
  split at h
  · cases h
  · rename_i v hparse
    obtain ⟨hread, hdocument, hwithin⟩ := parseNftSnapshot_ok hparse
    split at h
    · cases h
    · split at h
      · cases h
      · rename_i entries hentries
        obtain ⟨rfl, depth, hall⟩ := entries_eq hwithin hentries
        split at h
        · cases h
        · cases h
        · rename_i found hfound
          cases h
          exact ⟨_, hread, hdocument, hwithin, attestEntries_none hall hfound⟩

def isDelete (command : List Bytes) : Bool := command.head? == some (ascii "delete")

theorem absentAfter_ok {message : String} {answer : Except Failure (Bool × Bytes)}
    (h : absentAfter serde table message answer = .ok ()) :
    ∃ text, answer = .ok (true, text) ∧
      nftTableSnapshotProvesAbsence serde text table = .ok true := by
  unfold absentAfter at h
  split at h
  · cases h
  · cases h
  · rename_i text
    split at h
    · cases h
    · rename_i absent habsent
      split at h
      · rename_i htrue
        exact ⟨text, rfl, htrue ▸ habsent⟩
      · cases h

/-- What a clean-up may have done: at most the handle that the first answer attests is deleted,
and success comes after an answer that proves absence. -/
structure Cleanup.Sound (c : Cleanup) (serde : Serde) (table owner : Bytes)
    (execute : ℕ → List Bytes → Except Failure (Bool × Bytes)) : Prop where
  once : c.commands.countP isDelete ≤ 1
  attested : ∀ command ∈ c.commands, isDelete command = true →
    ∃ listed handle, execute 0 (nftTableSnapshotArguments table) = .ok (true, listed) ∧
      attestRoutePinSnapshot serde listed table owner = .ok handle ∧
      command = deleteHandle handle
  absent : c.result = .ok () → ∃ before text, c.commands = before ++ [listTables] ∧
    execute before.length listTables = .ok (true, text) ∧
    nftTableSnapshotProvesAbsence serde text table = .ok true

theorem cleanup_sound (serde : Serde) (table owner : Bytes)
    (execute : ℕ → List Bytes → Except Failure (Bool × Bytes)) :
    (cleanupNamedRoutePinWith serde table owner execute).Sound serde table owner execute := by
  have hdelete : ∀ handle, isDelete (deleteHandle handle) = true := fun _ => rfl
  have hlist : isDelete (nftTableSnapshotArguments table) = false := rfl
  have htables : isDelete listTables = false := rfl
  unfold cleanupNamedRoutePinWith
  dsimp only
  split
  · exact ⟨by simp [hlist], by simp [hlist], nofun⟩
  · refine ⟨by simp [hlist, htables], by simp [hlist, htables], fun h => ?_⟩
    obtain ⟨text, hanswer, habsent⟩ := absentAfter_ok h
    exact ⟨[_], text, rfl, hanswer, habsent⟩
  · rename_i listed hlisted
    split
    · exact ⟨by simp [hlist], by simp [hlist], nofun⟩
    · rename_i handle hattest
      have hattested : ∃ listed handle', execute 0 (nftTableSnapshotArguments table) =
          .ok (true, listed) ∧ attestRoutePinSnapshot serde listed table owner = .ok handle' ∧
          deleteHandle handle = deleteHandle handle' := ⟨listed, handle, hlisted, hattest, rfl⟩
      split
      · exact ⟨by simp [hlist, hdelete], by simpa [hlist, hdelete] using hattested, nofun⟩
      · exact ⟨by simp [hlist, hdelete], by simpa [hlist, hdelete] using hattested, nofun⟩
      · split
        · exact ⟨by simp [hlist, hdelete], by simpa [hlist, hdelete] using hattested, nofun⟩
        · exact ⟨by simp [hlist, hdelete], by simpa [hlist, hdelete] using hattested, nofun⟩
        · refine ⟨by simp [hlist, htables, hdelete],
            by simpa [hlist, htables, hdelete] using hattested,
            fun h => ?_⟩
          obtain ⟨text, hanswer, habsent⟩ := absentAfter_ok h
          exact ⟨[_, _, _], text, rfl, hanswer, habsent⟩

/-- **A snapshot proves what it says**, whatever member a reader would keep. -/
theorem nft_snapshot_sound (serde : Serde) :
    (∀ input, (∃ v, parseNftSnapshot serde input = .ok v) ↔
      input.length ≤ maxSnapshotBytes ∧ ∃ v, serde.Document v input ∧ Within 16 v) ∧
    (∀ input, parseNftSnapshot serde input ≠ .error .panicked) ∧
    (∀ input table, nftTableSnapshotProvesAbsence serde input table = .ok true →
      ∃ v, serde.fromSlice input = some v ∧ serde.Document v input ∧ Within 16 v ∧
        ¬v.ListsTable table) ∧
    (∀ input table owner handle, attestRoutePinSnapshot serde input table owner = .ok handle →
      ∃ v, serde.fromSlice input = some v ∧ serde.Document v input ∧ Within 16 v ∧
        serde.ListsOnly v table owner handle) ∧
    ∀ table owner execute,
      (cleanupNamedRoutePinWith serde table owner execute).Sound serde table owner execute :=
  ⟨fun _ => parseNftSnapshot_iff, fun _ => parseNftSnapshot_ne_panicked,
    fun _ _ => proves_absence, fun _ _ _ _ => attests_handle, cleanup_sound serde⟩

def metainfo : Value := .obj [(ascii "metainfo", .obj [(ascii "version", .str (ascii "1.1.1")),
  (ascii "release_name", .str (ascii "Commodore Bullmoose #2")),
  (ascii "json_schema_version", .scalar (ascii "1"))])]

/-- The listing of a table that is pinned. -/
def pinned : Value := .obj [(ascii "nftables", .arr [metainfo,
  .obj [(ascii "table", .obj [(ascii "family", .str (ascii "inet")),
    (ascii "name", .str (ascii "cake_pin")), (ascii "handle", .scalar (ascii "12")),
    (ascii "comment", .str (ascii "job-7"))])]])]

/-- The listing of the tables after it is deleted. -/
def unpinned : Value := .obj [(ascii "nftables", .arr [metainfo,
  .obj [(ascii "table", .obj [(ascii "family", .str (ascii "inet")),
    (ascii "name", .str (ascii "fw4")), (ascii "handle", .scalar (ascii "1"))])]])]

theorem listings_plain : ∀ v ∈ [pinned, unpinned], v.plain = true := by
  simp only [forall_mem_cons]
  decide +kernel

noncomputable def nftSerde : Serde := serdeOf [pinned, unpinned] listings_plain

theorem within_table {table : List (Bytes × Value)} (hkeys : Keys (table.map Prod.fst))
    (hflat : ∀ m ∈ table, ∀ depth, Within depth m.2) :
    Within 16 (.obj [(ascii "nftables", .arr [metainfo, .obj [(ascii "table", .obj table)]])]) := by
  have hone : ∀ key, key.length ≤ 128 → Keys [key] := fun key hshort =>
    ⟨nodup_singleton _, by simp, by simpa using hshort⟩
  have hmetainfo : Within 15 metainfo := by
    refine .obj (hone (ascii "metainfo") (by decide)) (forall_mem_singleton.mpr ?_)
    refine .obj ⟨by decide, by decide, by decide⟩ ?_
    simp only [forall_mem_cons]
    exact ⟨.str, .str, .scalar, nofun⟩
  refine .obj (hone (ascii "nftables") (by decide)) (forall_mem_singleton.mpr (.arr ?_))
  simp only [forall_mem_cons]
  exact ⟨hmetainfo, .obj (hone (ascii "table") (by decide))
    (forall_mem_singleton.mpr (.obj hkeys fun m hm => hflat m hm _)), nofun⟩

theorem listings_within : ∀ v ∈ [pinned, unpinned], Within 16 v := by
  simp only [forall_mem_cons]
  refine ⟨within_table ⟨by decide, by decide, by decide⟩ ?_,
    within_table ⟨by decide, by decide, by decide⟩ ?_, nofun⟩
  all_goals simp only [forall_mem_cons]
  · exact ⟨fun _ => .str, fun _ => .str, fun _ => .scalar, fun _ => .str, nofun⟩
  · exact ⟨fun _ => .str, fun _ => .str, fun _ => .scalar, nofun⟩

theorem listings_read : ∀ v ∈ [pinned, unpinned], nftSerde.fromSlice v.print = some v := by
  have hother : pinned.print ≠ unpinned.print := by decide +kernel
  simp only [forall_mem_cons]
  refine ⟨?_, ?_, nofun⟩
  · simp [nftSerde, serdeOf]
  · simp [nftSerde, serdeOf, hother]

/-- What nft answers to a clean-up: the listing, the deletion, no listing, and the tables. -/
def answers : ℕ → List Bytes → Except Failure (Bool × Bytes)
  | 0, _ => .ok (true, pinned.print)
  | 1, _ => .ok (true, [])
  | 2, _ => .ok (false, [])
  | _, _ => .ok (true, unpinned.print)

/-- **A table is deleted** by the handle that its listing proves, and proved to be absent. -/
theorem listings_sound :
    attestRoutePinSnapshot nftSerde pinned.print (ascii "cake_pin") (ascii "job-7") = .ok 12 ∧
    nftSerde.ListsOnly pinned (ascii "cake_pin") (ascii "job-7") 12 ∧
    nftTableSnapshotProvesAbsence nftSerde unpinned.print (ascii "cake_pin") = .ok true ∧
    ¬unpinned.ListsTable (ascii "cake_pin") ∧
    (cleanupNamedRoutePinWith nftSerde (ascii "cake_pin") (ascii "job-7") answers).result = .ok () ∧
    (cleanupNamedRoutePinWith nftSerde (ascii "cake_pin") (ascii "job-7") answers).Sound nftSerde
      (ascii "cake_pin") (ascii "job-7") answers := by
  obtain ⟨haccepted, -, habsence, hhandle, hcleanup⟩ := nft_snapshot_sound nftSerde
  have hparse : ∀ v ∈ [pinned, unpinned], v.print.length ≤ maxSnapshotBytes →
      parseNftSnapshot nftSerde v.print = .ok v := by
    intro v hv hlength
    obtain ⟨v', hv'⟩ := (haccepted v.print).mpr
      ⟨hlength, v, print_document (listings_plain v hv), listings_within v hv⟩
    have hread := (parseNftSnapshot_ok hv').1
    rw [listings_read v hv] at hread
    rw [hv', some.inj hread]
  have hpinned := hparse pinned (by simp) (by decide +kernel)
  have hunpinned := hparse unpinned (by simp) (by decide +kernel)
  have hattested : attestRoutePinSnapshot nftSerde pinned.print (ascii "cake_pin")
      (ascii "job-7") = .ok 12 := by
    rw [attestRoutePinSnapshot, hpinned]
    decide +kernel
  have habsent : nftTableSnapshotProvesAbsence nftSerde unpinned.print (ascii "cake_pin") =
      .ok true := by
    rw [nftTableSnapshotProvesAbsence, hunpinned]
    decide +kernel
  refine ⟨hattested, ?_, habsent, ?_, ?_, hcleanup _ _ _⟩
  · obtain ⟨v, hread, -, -, hlists⟩ := hhandle _ _ _ _ hattested
    rw [listings_read pinned (by simp)] at hread
    rw [some.inj hread]
    exact hlists
  · obtain ⟨v, hread, -, -, hlists⟩ := habsence _ _ habsent
    rw [listings_read unpinned (by simp)] at hread
    rw [some.inj hread]
    exact hlists
  · rw [cleanupNamedRoutePinWith]
    simp only [answers, hattested, absentAfter, habsent, if_true]

end CakeAutorate.Snapshot
