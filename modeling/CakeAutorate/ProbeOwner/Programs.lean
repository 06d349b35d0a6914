/-
# The programs keep their side

What each program of a process leaves when it is run among the others: an attempt at a slot ends
with a slot that is ready to be granted or with a file that may be closed, and a retirement ends
with the receipt cleared or, where it fails, still in the slot.
-/

import CakeAutorate.ProbeOwner.Moves

namespace CakeAutorate.ProbeOwner

open Syscall Wire Override List Option

variable {generation : ℕ → Text} {pool : List UInt32} {p : ℕ} {s t : World} {h : Handle}

def SyncSucceeds : (c : Call) → World → Reply c → Prop
  | .sync h, s, r => (∃ l ∈ s.leases, l.handle = h) → r = true
  | _, _, _ => True

abbrev SafeFor (generation : ℕ → Text) (p : ℕ) {α : Type} (Q : Except String α → World → Prop)
    (program : Prog α) (s : World) : Prop :=
  Safe (fun c s r s' => SyncSucceeds c s r ∧ step generation p c s r s') (Inv generation)
    (Rely generation p) (Guard generation p) Q program s

/-- The process has locked a slot for an attempt; the file held `contents` then and holds
`bytes` now. -/
structure Slot (p : ℕ) (h : Handle) (contents bytes : Bytes) (s : World) : Prop where
  process : h.process = p
  lock : s.lock h.gid = some h
  lease : ∀ l ∈ s.leases, l.handle ≠ h
  logged : ∀ c, .locked h c ∈ s.log ↔ c = contents
  file : s.files h.gid = some bytes

/-- A file that may be closed. -/
structure Closable (p : ℕ) (h : Handle) (s : World) : Prop where
  process : h.process = p
  lease : ∀ l ∈ s.leases, l.handle ≠ h

def Settled (generation : ℕ → Text) (h : Handle) (contents : Bytes) (s : World) : Prop :=
  contents = [] ∨ ∃ stale, stale ≠ generation h.process ∧
    fromUtf8 contents = some (receipt h.gid stale) ∧ .recovered h stale 0 ∈ s.log

variable {contents bytes : Bytes}

theorem Slot.closable (hs : Slot p h contents bytes s) : Closable p h s :=
  ⟨hs.process, hs.lease⟩

theorem Rely.mem (hrely : Rely generation p s t) {e : Entry} (he : e ∈ s.log) : e ∈ t.log :=
  hrely.log.subset he

theorem Same.lease (hsame : Same generation h s t) (hlease : ∀ l ∈ s.leases, l.handle ≠ h) :
    ∀ l ∈ t.leases, l.handle ≠ h := by
  rintro ⟨h', b⟩ hl rfl
  exact hlease _ ((hsame.leases b).mp hl) rfl

section

variable (hs : Slot p h contents bytes s) (hrely : Rely generation p s t)
include hs hrely

theorem Slot.moved : Slot p h contents bytes t := by
  have hsame := hrely.slot h hs.process hs.lock
  refine ⟨hs.process, hsame.lock, hsame.lease hs.lease, ?_, hsame.file.trans hs.file⟩
  intro c
  constructor
  · exact fun hc => (hs.logged c).mp (hrely.logged h c hs.process hc)
  · exact fun hc => hrely.mem ((hs.logged c).mpr hc)

theorem Slot.debt (hdebt : NoDebt generation h s) : NoDebt generation h t :=
  fun u hu hunsettled => hdebt u hu
    (((hrely.slot h hs.process hs.lock).unsettled u hu).mp hunsettled)

theorem Slot.idle (htasks : s.tasks h.gid = 0) : t.tasks h.gid = 0 :=
  (hrely.slot h hs.process hs.lock).tasks (fun hmem => hs.lease _ hmem rfl) htasks

end

theorem Closable.moved (hs : Closable p h s) (hrely : Rely generation p s t)
    (hinv : Inv generation t) : Closable p h t := by
  refine ⟨hs.process, ?_⟩
  rintro ⟨h', b⟩ hl rfl
  have hlock := hrely.lock _ _ hs.process (hinv.held _ hl)
  exact hs.lease _ (((hrely.slot _ hs.process hlock).leases b).mp hl) rfl

theorem Settled.moved {contents : Bytes} (hs : Settled generation h contents s)
    (hrely : Rely generation p s t) : Settled generation h contents t := by
  rcases hs with hempty | ⟨stale, hne, hread, hrecovered⟩
  · exact .inl hempty
  · exact .inr ⟨stale, hne, hread, hrely.mem hrecovered⟩

theorem Opened.moved (hs : Opened p h s) (hrely : Rely generation p s t) : Opened p h t where
  process := hs.process
  number := Nat.lt_of_lt_of_le hs.number hrely.opened
  present := hrely.present _ hs.present
  unlogged c hc := hs.unlogged c (hrely.logged h c hs.process hc)
  unlocked gid hgid := hs.unlocked gid (hrely.lock gid h hs.process hgid)

def Quiet : Call → Prop
  | .openDirectory | .metadata _ | .readToString _ | .sync _ | .seek _ | .attest _ => True
  | _ => False

variable {α : Type} {Q : Except String α → World → Prop}

theorem safe_ret {r : Except String α} (hQ : ∀ t, Rely generation p s t → Inv generation t → Q r t) :
    SafeFor generation p Q (.ret r) s := hQ

theorem safe_call {c : Call} {f : Reply c → Prog α}
    (hk : ∀ t, Rely generation p s t → Inv generation t → Guard generation p c t ∧
      ∀ r u, SyncSucceeds c t r → step generation p c t r u → Inv generation u →
        SafeFor generation p Q (f r) u) : SafeFor generation p Q (call c >>= f) s := by
  intro t hrely hinv
  obtain ⟨hguard, hnext⟩ := hk t hrely hinv
  exact ⟨hguard, fun r u hstep hinv' => hnext r u hstep.1 hstep.2 hinv'⟩

theorem safe_quiet {c : Call} {f : Reply c → Prog α} (hquiet : Quiet c)
    (hk : ∀ t, Rely generation p s t → Inv generation t → ∀ r, SyncSucceeds c t r →
      step generation p c t r t → SafeFor generation p Q (f r) t) :
    SafeFor generation p Q (call c >>= f) s := by
  refine safe_call fun t hrely hinv => ?_
  have hguard : Guard generation p c t := by
    cases c <;> trivial
  refine ⟨hguard, fun r u hsync hstep _ => ?_⟩
  have heq : u = t := by
    cases c with
    | openDirectory => exact hstep
    | metadata h => exact hstep.2
    | readToString h => exact hstep.2
    | sync h => exact hstep
    | seek h => exact hstep
    | attest h => exact hstep
    | _ => exact absurd hquiet id
  subst heq
  exact hk u hrely hinv r hsync hstep

theorem safe_require {ok : Bool} {error : String} {f : Unit → Prog α}
    (hfalse : ok = false → SafeFor generation p Q (.ret (.error error)) s)
    (htrue : ok = true → SafeFor generation p Q (f ()) s) :
    SafeFor generation p Q (require ok error >>= f) s := by
  cases ok with
  | false => exact hfalse rfl
  | true => exact htrue rfl

theorem safe_tried {β : Type} {Q : Except String β → World → Prop} {r : Except String α}
    {f : α → Prog β} (herror : ∀ e, r = .error e → SafeFor generation p Q (.ret (.error e)) s)
    (hok : ∀ a, r = .ok a → SafeFor generation p Q (f a) s) :
    SafeFor generation p Q (tried r >>= f) s := by
  cases r with
  | error e => exact herror e rfl
  | ok a => exact hok a rfl

theorem receipt_of_stale {text stale : Text} {gid : UInt32}
    (hstale : staleReceiptGeneration text gid = some stale) : text = receipt gid stale := by
  obtain ⟨rest, hhead, hstale⟩ := bind_eq_some_iff.mp hstale
  obtain ⟨⟨recorded, rest'⟩, hsplit, hstale⟩ := bind_eq_some_iff.mp hstale
  obtain ⟨written, hsuffix, hstale⟩ := bind_eq_some_iff.mp hstale
  have htext : text = receiptHead ++ rest := by
    unfold stripPrefix at hhead
    split at hhead
    · rename_i hstart
      obtain ⟨tail, rfl⟩ := hstart
      rw [← some.inj hhead, drop_left]
    · cases hhead
  have hrest : rest' = written ++ ['\n'] := by
    unfold stripSuffix at hsuffix
    split at hsuffix
    · rename_i hlast
      rw [← some.inj hsuffix]
      exact (dropLast_append_getLast? _ hlast).symm
    · cases hsuffix
  split at hstale
  · rename_i hexact
    cases hstale
    rw [htext, splitOnce_eq_some hsplit, hrest, hexact.1]
    rfl
  · cases hstale

theorem receipt_inj {gid : UInt32} {m n : Text} (heq : receipt gid m = receipt gid n) : m = n := by
  have hrest := append_cancel_left (append_cancel_left heq)
  exact append_cancel_right (cons.inj hrest).2

theorem receiptOf_ne_nil (h : Handle) : receiptOf generation h ≠ [] := by
  intro heq
  have hpos : 0 < byteLength (receipt h.gid (generation h.process)) := by
    have hsize := Char.utf8Size_pos '\n'
    rw [receipt, byteLength_append, byteLength_append, byteLength_cons]
    omega
  have hzero : byteLength (receipt h.gid (generation h.process)) = 0 :=
    congrArg length heq
  omega

theorem Inv.debt_of_empty (hinv : Inv generation s) (hfile : s.files h.gid = some []) :
    NoDebt generation h s := by
  intro t hgid ht
  have := hinv.fenced t ht
  rw [hgid, hfile] at this
  exact receiptOf_ne_nil t (some.inj this).symm

end CakeAutorate.ProbeOwner
