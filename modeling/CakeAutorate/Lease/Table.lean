/-
# Leases

`LeaseTable` of `operations/lease.rs`: which job holds which runtime lease, kept
twice, by key and by job.  Four operations update both maps key by key; the two
views are inverse after every sequence of calls, so a key has one owner.
-/

import CakeAutorate.Wire.Text
import Mathlib.Data.Char
import Mathlib.Data.Finset.Sort
import Mathlib.Data.List.Lex
import Mathlib.Data.Prod.Lex

namespace CakeAutorate.Lease

open Wire Function Finset

inductive LeaseKey where
  | heavyTraffic
  | instance_ (name : Text)
  | targetInterface (name : Text)
  | sqmFingerprint (digest : Text)
  | managedSqmSection (name : Text)
  deriving DecidableEq

def LeaseKey.rank : LeaseKey → ℕ ×ₗ Text
  | .heavyTraffic => toLex (0, [])
  | .instance_ name => toLex (1, name)
  | .targetInterface name => toLex (2, name)
  | .sqmFingerprint digest => toLex (3, digest)
  | .managedSqmSection name => toLex (4, name)

theorem LeaseKey.rank_injective : Function.Injective LeaseKey.rank := by
  intro a b h
  cases a <;> cases b <;> simp_all [LeaseKey.rank]

/-- The derived `Ord`, the order in which a `BTreeSet` of keys is read. -/
instance : LinearOrder LeaseKey := LinearOrder.lift' LeaseKey.rank LeaseKey.rank_injective

structure LeaseRequest where
  jobId : Text
  keys : Finset LeaseKey

def maxLeaseKeysPerJob : ℕ := 5

structure LeaseTable where
  owners : LeaseKey → Option Text
  jobs : Text → Option (Finset LeaseKey)

/-- Why a call is refused: `LeaseAcquireError`, and what the errors of the other calls
say, with the values that their texts hold. -/
inductive LeaseError where
  | jobAlreadyOwns (jobId : Text)
  | conflict (key : LeaseKey) (ownerJobId : Text)
  | ownsNoBaseLeases (jobId : Text)
  | emptyOrDuplicate
  | tooManyLeases
  | alreadyOwned (key : LeaseKey) (owner : Text)
  | ownsNoLeases (jobId : Text)
  | ownerTableInconsistent
  | disappearedBeforeRelease
  | noHeavyLease (jobId : Text)
  | heavyWithoutLocal

namespace LeaseTable

/-- `LeaseTable::default`. -/
def empty : LeaseTable where
  owners _ := none
  jobs _ := none

variable (t : LeaseTable)

def firstOwned (keys : Finset LeaseKey) : Option (LeaseKey × Text) :=
  (keys.sort (· ≤ ·)).findSome? fun key => (t.owners key).map fun owner => (key, owner)

/-- `owners.insert` for one key after the other. -/
def insertOwners (owners : LeaseKey → Option Text) (jobId : Text) :
    List LeaseKey → LeaseKey → Option Text
  | [] => owners
  | key :: keys => insertOwners (update owners key (some jobId)) jobId keys

def acquire (request : LeaseRequest) : LeaseTable × Except LeaseError Unit :=
  if (t.jobs request.jobId).isSome then (t, .error (.jobAlreadyOwns request.jobId))
  else match t.firstOwned request.keys with
    | some (key, owner) => (t, .error (.conflict key owner))
    | none =>
      ({ owners := insertOwners t.owners request.jobId (request.keys.sort (· ≤ ·))
         jobs := update t.jobs request.jobId (some request.keys) }, .ok ())

def acquireAdditional (request : LeaseRequest) : LeaseTable × Except LeaseError Unit :=
  match t.jobs request.jobId with
  | none => (t, .error (.ownsNoBaseLeases request.jobId))
  | some owned =>
    if request.keys = ∅ ∨ ∃ key ∈ request.keys, key ∈ owned then (t, .error .emptyOrDuplicate)
    else if owned.card + request.keys.card > maxLeaseKeysPerJob then (t, .error .tooManyLeases)
    else match t.firstOwned request.keys with
      | some (key, owner) => (t, .error (.alreadyOwned key owner))
      | none =>
        ({ owners := insertOwners t.owners request.jobId (request.keys.sort (· ≤ ·))
           jobs := update t.jobs request.jobId (some (owned ∪ request.keys)) }, .ok ())

/-- The loop of `release`: it stops at the first key that is not the job's. -/
def releaseKeys (jobId : Text) (owners : LeaseKey → Option Text) :
    List LeaseKey → (LeaseKey → Option Text) × Except LeaseError Unit
  | [] => (owners, .ok ())
  | key :: keys =>
    match owners key with
    | some owner =>
      if owner = jobId then releaseKeys jobId (update owners key none) keys
      else (owners, .error .ownerTableInconsistent)
    | none => (owners, .error .disappearedBeforeRelease)

/-- `LeaseTable::release`: the job is taken out before its keys are. -/
def release (jobId : Text) : LeaseTable × Except LeaseError Unit :=
  match t.jobs jobId with
  | none => (t, .error (.ownsNoLeases jobId))
  | some keys =>
    let (owners, result) := releaseKeys jobId t.owners (keys.sort (· ≤ ·))
    ({ owners, jobs := update t.jobs jobId none }, result)

def releaseHeavy (jobId : Text) : LeaseTable × Except LeaseError Unit :=
  match t.jobs jobId with
  | none => (t, .error (.ownsNoLeases jobId))
  | some keys =>
    if .heavyTraffic ∉ keys ∨ t.owners .heavyTraffic ≠ some jobId then
      (t, .error (.noHeavyLease jobId))
    else if keys.card = 1 then (t, .error .heavyWithoutLocal)
    else
      ({ owners := update t.owners .heavyTraffic none
         jobs := update t.jobs jobId (some (keys.erase .heavyTraffic)) }, .ok ())

end LeaseTable

/-- A call on the table. -/
inductive Call where
  | acquire (request : LeaseRequest)
  | acquireAdditional (request : LeaseRequest)
  | release (jobId : Text)
  | releaseHeavy (jobId : Text)

namespace LeaseTable

def call (t : LeaseTable) : Call → LeaseTable × Except LeaseError Unit
  | .acquire request => t.acquire request
  | .acquireAdditional request => t.acquireAdditional request
  | .release jobId => t.release jobId
  | .releaseHeavy jobId => t.releaseHeavy jobId

def run (t : LeaseTable) (calls : List Call) : LeaseTable := calls.foldl (fun t c => (t.call c).1) t

def Inverse (t : LeaseTable) : Prop :=
  ∀ key job, t.owners key = some job ↔ ∃ keys, t.jobs job = some keys ∧ key ∈ keys

variable {t : LeaseTable}

theorem insertOwners_eq (owners : LeaseKey → Option Text) (jobId : Text) (keys : List LeaseKey)
    (key : LeaseKey) :
    insertOwners owners jobId keys key = if key ∈ keys then some jobId else owners key := by
  induction keys generalizing owners with
  | nil => simp [insertOwners]
  | cons k keys ih =>
    rw [insertOwners, ih]
    by_cases hmem : key ∈ keys
    · simp [hmem]
    · by_cases heq : key = k
      · subst heq
        simp [hmem]
      · simp [hmem, heq]

variable {keys : Finset LeaseKey} {jobId : Text}

theorem firstOwned_eq_none (h : t.firstOwned keys = none) : ∀ key ∈ keys, t.owners key = none := by
  intro key hkey
  have := List.findSome?_eq_none_iff.1 h key (by simpa using hkey)
  simpa using this

theorem inverse_empty : Inverse empty := by
  intro key job
  simp [empty]

theorem Inverse.insert (h : t.Inverse) {owned : Finset LeaseKey}
    (howned : ∀ key, t.owners key = some jobId ↔ key ∈ owned)
    (hfree : ∀ key ∈ keys, t.owners key = none) :
    Inverse { owners := insertOwners t.owners jobId (keys.sort (· ≤ ·))
              jobs := update t.jobs jobId (some (owned ∪ keys)) } := by
  intro key job
  have hmem : key ∈ keys.sort (· ≤ ·) ↔ key ∈ keys := mem_sort _
  simp only [insertOwners_eq, hmem]
  by_cases hkey : key ∈ keys
  · rw [if_pos hkey]
    by_cases hjob : job = jobId
    · subst hjob
      simp [hkey]
    · have hnone : ¬ ∃ ks, t.jobs job = some ks ∧ key ∈ ks := by
        rw [← h key job, hfree key hkey]
        simp
      simpa [update_of_ne hjob, Ne.symm hjob] using hnone
  · rw [if_neg hkey]
    by_cases hjob : job = jobId
    · subst hjob
      simp [hkey, howned]
    · rw [update_of_ne hjob]
      exact h key job

theorem Inverse.owned_none (h : t.Inverse) (hjob : t.jobs jobId = none) (key : LeaseKey) :
    t.owners key = some jobId ↔ key ∈ (∅ : Finset LeaseKey) := by
  rw [h key jobId, hjob]
  simp

theorem Inverse.owned_some (h : t.Inverse) {owned : Finset LeaseKey}
    (hjob : t.jobs jobId = some owned) (key : LeaseKey) :
    t.owners key = some jobId ↔ key ∈ owned := by
  rw [h key jobId, hjob]
  simp

/-- The loop of `release` frees the keys when the job owns them all. -/
theorem releaseKeys_eq {keys : List LeaseKey} (hnodup : keys.Nodup)
    {owners : LeaseKey → Option Text} (h : ∀ key ∈ keys, owners key = some jobId) :
    releaseKeys jobId owners keys = (fun key => if key ∈ keys then none else owners key, .ok ()) := by
  induction keys generalizing owners with
  | nil => simp [releaseKeys]
  | cons k keys ih =>
    obtain ⟨hk, hkeys⟩ := List.nodup_cons.1 hnodup
    have hrest : ∀ key ∈ keys, update owners k none key = some jobId := by
      intro key hkey
      have hne : key ≠ k := fun heq => hk (heq ▸ hkey)
      rw [update_of_ne hne]
      exact h key (List.mem_cons_of_mem _ hkey)
    rw [releaseKeys, h k List.mem_cons_self]
    simp only [if_true, ih hkeys hrest, Prod.mk.injEq, and_true]
    funext key
    by_cases heq : key = k
    · subst heq
      simp
    · simp [heq]

def without (t : LeaseTable) (jobId : Text) : LeaseTable where
  owners key := if t.owners key = some jobId then none else t.owners key
  jobs := update t.jobs jobId none

/-- **A release finds what it expects**: it fails only for a job that owns nothing. -/
theorem Inverse.release_eq (h : t.Inverse) (jobId : Text) : t.release jobId =
    if t.jobs jobId = none then (t, .error (.ownsNoLeases jobId)) else (t.without jobId, .ok ()) := by
  unfold release
  cases hjob : t.jobs jobId with
  | none => simp
  | some keys =>
    have howned := h.owned_some hjob
    have hkeys : ∀ key ∈ keys.sort (· ≤ ·), t.owners key = some jobId := fun key hkey =>
      (howned key).2 ((mem_sort _).1 hkey)
    simp [releaseKeys_eq (sort_nodup _ _) hkeys, without, howned]

theorem Inverse.without (h : t.Inverse) (jobId : Text) : (t.without jobId).Inverse := by
  intro key job
  simp only [LeaseTable.without]
  by_cases hjob : job = jobId
  · subst hjob
    by_cases howner : t.owners key = some job
    · simp [howner]
    · simp [howner]
  · rw [update_of_ne hjob, ← h key job]
    by_cases howner : t.owners key = some jobId
    · rw [if_pos howner, howner]
      simp [Ne.symm hjob]
    · rw [if_neg howner]

theorem Inverse.eraseHeavy (h : t.Inverse) (hjob : t.jobs jobId = some keys)
    (hheavy : t.owners .heavyTraffic = some jobId) :
    Inverse { owners := update t.owners .heavyTraffic none
              jobs := update t.jobs jobId (some (keys.erase .heavyTraffic)) } := by
  intro key job
  show update t.owners .heavyTraffic none key = some job ↔
    ∃ ks, update t.jobs jobId (some (keys.erase .heavyTraffic)) job = some ks ∧ key ∈ ks
  by_cases hkey : key = .heavyTraffic
  · subst hkey
    by_cases hj : job = jobId
    · subst hj
      simp
    · have hnone : ¬ ∃ ks, t.jobs job = some ks ∧ LeaseKey.heavyTraffic ∈ ks := by
        rw [← h .heavyTraffic job, hheavy]
        simpa using Ne.symm hj
      simpa [update_of_ne hj] using hnone
  · rw [update_of_ne hkey]
    by_cases hj : job = jobId
    · subst hj
      rw [h.owned_some hjob key]
      simp [hkey]
    · rw [update_of_ne hj]
      exact h key job

/-- **What a call can do**: refuse and change nothing, or keep the two views inverse. -/
theorem Inverse.call (h : t.Inverse) (c : Call) :
    (∃ e, t.call c = (t, .error e) ∧ e ≠ .ownerTableInconsistent ∧ e ≠ .disappearedBeforeRelease) ∨
      ((t.call c).2 = .ok () ∧ (t.call c).1.Inverse) := by
  cases c with
  | acquire request =>
    simp only [LeaseTable.call, acquire]
    split
    · exact .inl ⟨_, rfl, by simp, by simp⟩
    · rename_i hjob
      split
      · exact .inl ⟨_, rfl, by simp, by simp⟩
      · rename_i hfree
        have hnone : t.jobs request.jobId = none := by simpa using hjob
        have := h.insert (h.owned_none hnone) (firstOwned_eq_none hfree)
        rw [empty_union] at this
        exact .inr ⟨rfl, this⟩
  | acquireAdditional request =>
    simp only [LeaseTable.call, acquireAdditional]
    split
    · exact .inl ⟨_, rfl, by simp, by simp⟩
    · rename_i owned hjob
      split
      · exact .inl ⟨_, rfl, by simp, by simp⟩
      · split
        · exact .inl ⟨_, rfl, by simp, by simp⟩
        · split
          · exact .inl ⟨_, rfl, by simp, by simp⟩
          · rename_i hfree
            exact .inr ⟨rfl, h.insert (h.owned_some hjob) (firstOwned_eq_none hfree)⟩
  | release jobId =>
    simp only [LeaseTable.call, h.release_eq]
    split
    · exact .inl ⟨_, rfl, by simp, by simp⟩
    · exact .inr ⟨rfl, h.without jobId⟩
  | releaseHeavy jobId =>
    simp only [LeaseTable.call, releaseHeavy]
    split
    · exact .inl ⟨_, rfl, by simp, by simp⟩
    · rename_i keys hjob
      split
      · exact .inl ⟨_, rfl, by simp, by simp⟩
      · rename_i hheavy
        split
        · exact .inl ⟨_, rfl, by simp, by simp⟩
        · push Not at hheavy
          exact .inr ⟨rfl, h.eraseHeavy hjob hheavy.2⟩

theorem Inverse.run (h : t.Inverse) (calls : List Call) : (t.run calls).Inverse := by
  induction calls generalizing t with
  | nil => exact h
  | cons c calls ih =>
    show ((t.call c).1.run calls).Inverse
    rcases h.call c with ⟨e, he, -, -⟩ | ⟨-, hinv⟩
    · rw [he]
      exact ih h
    · exact ih hinv

end LeaseTable

end CakeAutorate.Lease
