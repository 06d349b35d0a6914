/-
# Probe group leases

`ProbeGroupLease` of `probe_owner.rs`: processes share one directory with a lease file for each
group of the pool.  A file lock fences live contenders and vanishes with its process; a receipt
in the file outlives the process and fences what it left behind.  The world also holds the
tasks that carry each group and the kernel rules that each generation installed, and a log of
what bears on the slots.

Nobody else writes the directory, so a lease file is the one that its name had when it was
opened; any call may still fail.  The inventory of the tasks is one step.
-/

import CakeAutorate.Override.Namespace
import CakeAutorate.Syscall.Parallel

namespace CakeAutorate.ProbeOwner

open Syscall Wire Protocol Override

/-- An open lease file: the process that has it open, which of its openings it is, and the
group of the slot. -/
structure Handle where
  process : ℕ
  number : ℕ
  gid : UInt32
  deriving DecidableEq

def validGeneration (generation : Text) : Bool := lowerHex 64 generation

def receiptHead : Text := "cake-probe-owner-v1\n".toList

def receipt (gid : UInt32) (generation : Text) : Text :=
  receiptHead ++ (display gid.toNat ++ '\n' :: (generation ++ ['\n']))

def staleReceiptGeneration (text : Text) (gid : UInt32) : Option Text := do
  let rest ← stripPrefix receiptHead text
  let (recorded, rest) ← splitOnce '\n' rest
  let generation ← stripSuffix '\n' rest
  if recorded = display gid.toNat ∧ validGeneration generation then some generation else none

/-- What the log keeps. -/
inductive Entry where
  | locked (h : Handle) (contents : Bytes)
  | inventoried (h : Handle) (found held : Bool)
  | recovered (h : Handle) (generation : Text) (tasks : ℕ)
  | granted (h : Handle)
  | cleaned (h : Handle)
  | cleared (h : Handle)
  | retireFailed (h : Handle)
  deriving DecidableEq

/-- A live `ProbeGroupLease`; one that is retiring has left its owner's hands. -/
structure Lease where
  handle : Handle
  retiring : Bool
  deriving DecidableEq

/-- The directory, its locks, the tasks and rules of the kernel, and the live leases. -/
structure World where
  files : UInt32 → Option Bytes
  lock : UInt32 → Option Handle
  opened : ℕ
  tasks : UInt32 → ℕ
  rules : UInt32 → Text → Prop
  leases : List Lease
  log : List Entry

def World.boot (tasks : UInt32 → ℕ) : World where
  files _ := none
  lock _ := none
  opened := 0
  tasks
  rules _ _ := False
  leases := []
  log := []

namespace World

variable (s : World)

def contents (gid : UInt32) : Bytes := (s.files gid).getD []

def put (gid : UInt32) (bytes : Bytes) : World :=
  { s with files := Function.update s.files gid (some bytes) }

def write (gid : UInt32) (bytes : Bytes) : World :=
  s.put gid (bytes ++ (s.contents gid).drop bytes.length)

def record (e : Entry) : World := { s with log := e :: s.log }

def carry (gid : UInt32) (n : ℕ) : World :=
  { s with tasks := Function.update s.tasks gid n }

def install (gid : UInt32) (generation : Text) : World :=
  { s with rules := fun g n => s.rules g n ∨ g = gid ∧ n = generation }

def SettleRules (gid : UInt32) (generation : Text) (s' : World) : Prop :=
  ∃ rules : UInt32 → Text → Prop, s' = { s with rules } ∧
    (∀ g n, rules g n → s.rules g n) ∧ ∀ g n, s.rules g n → ¬(g = gid ∧ n = generation) → rules g n

def close (h : Handle) : World :=
  { s with
    lock := fun gid => if s.lock gid = some h then none else s.lock gid
    leases := s.leases.filter fun l => l.handle ≠ h }

def dead (p : ℕ) : World :=
  { s with
    lock := fun gid => (s.lock gid).filter fun h => h.process ≠ p
    leases := s.leases.filter fun l => l.handle.process ≠ p }

def give (h : Handle) : World :=
  { s with leases := s.leases.map fun l => if l.handle = h then { l with retiring := true } else l }

end World

/-- The calls on a slot, the callers' `recover` and `cleanup` among them. -/
inductive Call where
  | openDirectory
  | openLease (gid : UInt32)
  | tryLock (h : Handle)
  | metadata (h : Handle)
  | readToString (h : Handle)
  | inventory (h : Handle)
  | recover (h : Handle) (stale : Text)
  | setLen (h : Handle)
  | sync (h : Handle)
  | seek (h : Handle)
  | write (h : Handle) (text : Text)
  | attest (h : Handle)
  | cleanup (h : Handle)
  | close (h : Handle)

/-- `File::try_lock`. -/
inductive TryLock where
  | locked
  | wouldBlock
  | failed

/-- `Metadata` of a lease file: whether it is a private file of the owner, and its length. -/
structure Metadata where
  safe : Bool
  len : ℕ

abbrev Reply : Call → Type
  | .openDirectory => Except String Unit
  | .openLease _ => Option Handle
  | .tryLock _ => TryLock
  | .metadata _ => Option Metadata
  | .readToString _ => Option Text
  | .inventory _ => Except String Bool
  | .recover _ _ => Except String Unit
  | .setLen _ => Bool
  | .sync _ => Bool
  | .seek _ => Bool
  | .write _ _ => Bool
  | .attest _ => Except String Unit
  | .cleanup _ => Except String Unit
  | .close _ => Unit

abbrev Prog := Program Call Reply String

abbrev call (c : Call) : Prog (Reply c) := .perform c

def tried {α : Type} (r : Except String α) : Prog α := .lift r

def require (ok : Bool) (error : String) : Prog Unit := if ok then pure () else throw error

/-- What `acquire_recovering` does about a receipt; it says whether the slot may be used. -/
def passReceipt (h : Handle) (generation : Text) (len : ℕ) : Prog Bool := do
  if len > 128 then return false
  match ← call (.readToString h) with
  | none => return false
  | some text =>
    match staleReceiptGeneration text h.gid with
    | none => return false
    | some stale =>
      if stale = generation then return false
      if ← tried (← call (.inventory h)) then return false
      match ← call (.recover h stale) with
      | .error _ => return false
      | .ok () =>
        require (← call (.setLen h)) "probe-owner-lease-recovery-failed"
        require (← call (.sync h)) "probe-owner-lease-recovery-failed"
        return true

def publish (h : Handle) (generation : Text) : Prog Handle := do
  require (← call (.seek h)) "probe-owner-lease-publish-failed"
  require (← call (.write h (receipt h.gid generation))) "probe-owner-lease-publish-failed"
  require (← call (.sync h)) "probe-owner-lease-publish-failed"
  match ← call (.metadata h) with
  | none => throw "probe-owner-lease-file-unavailable"
  | some _ => do
    tried (← call (.attest h))
    return h

def trySlot (generation : Text) (h : Handle) : Prog (Option Handle) := do
  match ← call (.tryLock h) with
  | .wouldBlock => return none
  | .failed => throw "probe-owner-lease-lock-failed"
  | .locked =>
    match ← call (.metadata h) with
    | none => throw "probe-owner-lease-file-unavailable"
    | some metadata => do
      require metadata.safe "probe-owner-lease-file-unsafe"
      let passed ← if metadata.len ≠ 0 then passReceipt h generation metadata.len else pure true
      if !passed then return none
      if ← tried (← call (.inventory h)) then return none
      let lease ← publish h generation
      return some lease

def closing (h : Handle) (slot : Prog (Option Handle)) : Prog (Option Handle) := do
  match ← slot.attempt with
  | .ok (some lease) => return some lease
  | .ok none => do
    call (.close h)
    return none
  | .error error => do
    call (.close h)
    throw error

def acquireFrom (generation : Text) : List UInt32 → Prog Handle
  | [] => throw "probe-owner-pool-exhausted-or-unrecovered"
  | gid :: gids => do
    match ← call (.openLease gid) with
    | none => throw "probe-owner-lease-file-unavailable"
    | some h =>
      match ← closing h (trySlot generation h) with
      | some lease => return lease
      | none => acquireFrom generation gids

/-- `ProbeGroupLease::acquire_recovering`. -/
def acquireRecovering (pool : List UInt32) (generation : Text) : Prog Handle := do
  require (validGeneration generation) "probe-owner-generation-invalid"
  tried (← call .openDirectory)
  acquireFrom generation pool

/-- `process_group_in_use` must find nobody. -/
def requireAbsent (h : Handle) : Prog Unit := do
  let found ← tried (← call (.inventory h))
  require (!found) "probe-owner-processes-still-live"

/-- `ProbeGroupLease::retire`; the lease is dropped when it returns. -/
def retire (h : Handle) : Prog Unit := do
  tried (← call (.attest h))
  requireAbsent h
  tried (← call (.cleanup h))
  requireAbsent h
  tried (← call (.attest h))
  require (← call (.setLen h)) "probe-owner-lease-retire-failed"
  require (← call (.sync h)) "probe-owner-lease-retire-failed"

/-- What a process does with leases. -/
inductive Request where
  | acquire
  | retire (h : Handle)
  | drop (h : Handle)

variable (generation : ℕ → Text) (pool : List UInt32)

def body (p : ℕ) : Request → Prog (Option Handle)
  | .acquire => do
    let lease ← acquireRecovering pool (generation p)
    return some lease
  | .retire h => do
    retire h
    return none
  | .drop _ => pure none

def start (p : ℕ) : Request → World → World → Prop
  | .acquire, s, s' => s' = s
  | .retire h, s, s' => ⟨h, false⟩ ∈ s.leases ∧ h.process = p ∧ s' = s.give h
  | .drop h, s, s' => ⟨h, false⟩ ∈ s.leases ∧ h.process = p ∧ s' = s.give h

def finish (_p : ℕ) : Request → Except String (Option Handle) → World → World → Prop
  | .acquire, .ok (some h), s, s' =>
    s' = { s.record (.granted h) with leases := ⟨h, false⟩ :: s.leases }
  | .acquire, _, s, s' => s' = s
  | .retire h, .ok _, s, s' => s' = s.close h
  | .retire h, .error _, s, s' => s' = (s.record (.retireFailed h)).close h
  | .drop h, _, s, s' => s' = s.close h

def step (p : ℕ) : (c : Call) → World → Reply c → World → Prop
  | .openDirectory, s, _, s' => s' = s
  | .openLease gid, s, r, s' =>
    (r = none ∧ s' = s) ∨
      (r = some ⟨p, s.opened, gid⟩ ∧
        s' = { s.put gid (s.contents gid) with opened := s.opened + 1 })
  | .tryLock h, s, r, s' =>
    (r = .locked ∧ s.lock h.gid = none ∧
      s' = { s.record (.locked h (s.contents h.gid)) with
        lock := Function.update s.lock h.gid (some h) }) ∨
      (r = .wouldBlock ∧ s.lock h.gid ≠ none ∧ s' = s) ∨ (r = .failed ∧ s' = s)
  | .metadata h, s, r, s' => (∀ m, r = some m → m.len = (s.contents h.gid).length) ∧ s' = s
  | .readToString h, s, r, s' => (r = none ∨ r = fromUtf8 (s.contents h.gid)) ∧ s' = s
  | .inventory h, s, r, s' =>
    (∃ error, r = .error error ∧ s' = s) ∨
      ∃ found, r = .ok found ∧ found = decide (0 < s.tasks h.gid) ∧
        s' = s.record (.inventoried h found (decide (s.lock h.gid = some h)))
  | .recover h stale, s, r, s' =>
    (∃ error, r = .error error ∧ s.SettleRules h.gid stale s') ∨
      ∃ s₁, r = .ok () ∧ s.SettleRules h.gid stale s₁ ∧ ¬s₁.rules h.gid stale ∧
        s' = s₁.record (.recovered h stale (s.tasks h.gid))
  | .setLen h, s, r, s' =>
    (r = false ∧ s' = s) ∨ (r = true ∧ s' = (s.put h.gid []).record (.cleared h))
  | .sync _, s, _, s' => s' = s
  | .seek _, s, _, s' => s' = s
  | .write h text, s, r, s' =>
    (r = true ∧ s' = s.write h.gid (utf8 text)) ∨
      (r = false ∧ ∃ n, s' = s.write h.gid ((utf8 text).take n))
  | .attest _, s, _, s' => s' = s
  | .cleanup h, s, r, s' =>
    (∃ error, r = .error error ∧ s.SettleRules h.gid (generation p) s') ∨
      ∃ s₁, r = .ok () ∧ s.SettleRules h.gid (generation p) s₁ ∧ ¬s₁.rules h.gid (generation p) ∧
        s' = s₁.record (.cleaned h)
  | .close h, s, _, s' => s' = s.close h

def torn (p : ℕ) : Call → World → World → Prop
  | .write h text, s, s' => ∃ n, s' = (s.write h.gid ((utf8 text).take n)).dead p
  | .recover h stale, s, s' => ∃ s₁, s.SettleRules h.gid stale s₁ ∧ s' = s₁.dead p
  | .cleanup h, s, s' => ∃ s₁, s.SettleRules h.gid (generation p) s₁ ∧ s' = s₁.dead p
  | _, _, _ => False

/-- What moves besides: a task that carries a group forks or exits, and the owner of a lease
starts tasks in its group and installs rules for them. -/
inductive Moves : World → World → Prop where
  | fork {s : World} {gid : UInt32} : 0 < s.tasks gid → Moves s (s.carry gid (s.tasks gid + 1))
  | exit {s : World} {gid : UInt32} : Moves s (s.carry gid (s.tasks gid - 1))
  | spawn {s : World} {h : Handle} :
      ⟨h, false⟩ ∈ s.leases → Moves s (s.carry h.gid (s.tasks h.gid + 1))
  | install {s : World} {h : Handle} :
      ⟨h, false⟩ ∈ s.leases → Moves s (s.install h.gid (generation h.process))

def processes : Parties ℕ Request World Call Reply String (Option Handle) where
  body := body generation pool
  start
  finish
  step := step generation
  torn := torn generation
  die p s s' := s' = s.dead p
  world := Moves generation

end CakeAutorate.ProbeOwner
