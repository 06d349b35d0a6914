/-
# What keeps a foreign commit safe

`Safe` is the invariant of the operations among other writers. A commit that is
not public is in the swap of a ready transaction, and then this transaction's
own candidate is public (so that every rollback puts the swap back) or the swap
cannot be read (so that no operation goes past its inspection of the directory).
-/

import CakeAutorate.UciTransaction.Foreign

namespace CakeAutorate.UciTransaction

open Syscall Syscall.Program Nat Function ReadsAt Shared UciTransaction

variable {h : Host}

def Ours (s : Shared) (g : Inode) : Prop :=
  g.ino < s.disk.supply ∧ ∀ i f, s.last i = some f → f.ino ≠ g.ino

/-- Inode numbers are given once. -/
structure Numbered (s : Shared) : Prop where
  last : ∀ i f, s.last i = some f → f.ino < s.disk.supply
  packages : ∀ i, (s.disk.packages i).ino < s.disk.supply
  swap : ∀ w i g, s.disk.pending = some w → w (.swap i) = some g → g.ino < s.disk.supply

/-- The receipts of a ready directory. -/
structure Recorded (c : PreparedConfig h) (a : Package → Inode) (w : Work) : Prop where
  staged : Staged c a
  intent : ∃ f, w .intent = some f ∧ f.bytes = receiptBytes h c.intent
  ready : ∃ f, w .ready = some f ∧ f.bytes = receiptBytes h (readyOf h a)

/-- The last commit to package `i` is in its swap, where a rollback finds it. -/
structure Held (c : PreparedConfig h) (a : Package → Inode) (w : Work) (i : Package)
    (s : Shared) : Prop where
  changed : c.changed i = true
  swap : ∃ g, w (.swap i) = some g ∧ (∀ f, s.last i = some f → f.SameFile g) ∧
    ((a i).SameFile (s.disk.packages i) ∨ ¬Readable h false maxConfig g)

/-- The directory of a ready transaction. -/
structure Opened (c : PreparedConfig h) (a : Package → Inode) (w : Work) (s : Shared) : Prop where
  root : s.disk.root = true
  pending : s.disk.pending = some w
  marker : w .accepted = none
  recorded : Recorded c a w
  ours : ∀ i, c.changed i = true → Ours s (a i)
  unchanged : ∀ i, c.changed i = false → w (.swap i) = none

/-- A ready transaction among other writers. -/
structure Ready (c : PreparedConfig h) (a : Package → Inode) (w : Work) (s : Shared) : Prop extends
    Opened c a w s where
  held : ∀ i, AtPublic i s ∨ Held c a w i s

/-- **The invariant.**  Every commit is public and no transaction is ready, or
one is and holds what is not public. -/
inductive Safe (h : Host) (s : Shared) : Prop where
  | settled (hn : Numbered s) (hp : ∀ i, AtPublic i s)
      (hw : ∀ w, s.disk.pending = some w →
        s.disk.root = true ∧ (w .ready = none ∨ (w .accepted).isSome))
  | ready {c : PreparedConfig h} (a : Package → Inode) (w : Work) (hn : Numbered s)
      (hr : Ready c a w s)

variable {c : PreparedConfig h} {a : Package → Inode} {w : Work} {s : Shared}

theorem Safe.numbered (hs : Safe h s) : Numbered s := by
  cases hs with
  | settled hn => exact hn
  | ready a w hn => exact hn

theorem Ready.stored (hr : Ready c a w s) : Stored s := by
  intro i
  rcases hr.held i with hp | hh
  · exact .inl hp
  · obtain ⟨g, hg, hf, -⟩ := hh.swap
    exact .inr ⟨w, g, hr.pending, hg, hf⟩

theorem Safe.stored (hs : Safe h s) : Stored s := by
  cases hs with
  | settled _ hp => exact fun i => .inl (hp i)
  | ready a w _ hr => exact hr.stored

variable {i : Package} {f : Inode} {E : Entry → Prop} {α : Type} {p : Prog α}

/-- It ends safe, and every commit is still there whenever it stops before. -/
abbrev EndsSafe (h : Host) (p : Prog α) (s : Shared) : Prop :=
  wp (careful h) (fun _ s' => Safe h s') Stored p s

theorem Ours.commit {g : Inode} (hg : Ours s g) (hf : f.ino = s.disk.supply) :
    Ours (s.commit i f) g := by
  refine ⟨lt_succ_of_lt hg.1, fun k f' hf' => ?_⟩
  by_cases hk : k = i
  · subst hk
    simp only [commit, update_self, Option.some.injEq] at hf'
    have := hg.1
    rw [← hf', hf]
    omega
  · rw [commit_last_of_ne hk] at hf'
    exact hg.2 k f' hf'

theorem Numbered.commit (hn : Numbered s) (hf : f.ino = s.disk.supply) :
    Numbered (s.commit i f) where
  last k f' hf' := by
    by_cases hk : k = i
    · subst hk
      simp only [commit, update_self, Option.some.injEq] at hf'
      rw [← hf', hf]
      exact lt_succ_self _
    · rw [commit_last_of_ne hk] at hf'
      exact lt_succ_of_lt (hn.last k f' hf')
  packages k := by
    by_cases hk : k = i
    · subst hk
      simp only [commit, update_self, hf]
      exact lt_succ_self _
    · rw [commit_packages_of_ne hk]
      exact lt_succ_of_lt (hn.packages k)
  swap w k g hw hg := lt_succ_of_lt (hn.swap w k g hw hg)

theorem Opened.commit (ho : Opened c a w s) (hf : f.ino = s.disk.supply) :
    Opened c a w (s.commit i f) where
  root := ho.root
  pending := ho.pending
  marker := ho.marker
  recorded := ho.recorded
  ours k hk := (ho.ours k hk).commit hf
  unchanged := ho.unchanged

theorem held_commit {k : Package} (hh : AtPublic k s ∨ Held c a w k s) :
    AtPublic k (s.commit i f) ∨ Held c a w k (s.commit i f) := by
  rcases hh with hp | hh
  · exact .inl hp.commit
  · by_cases hk : k = i
    · subst hk
      exact .inl commit_atPublic
    · refine .inr ⟨hh.changed, ?_⟩
      rw [commit_last_of_ne hk, commit_packages_of_ne hk]
      exact hh.swap

theorem Ready.commit (hr : Ready c a w s) (hf : f.ino = s.disk.supply) :
    Ready c a w (s.commit i f) where
  toOpened := hr.toOpened.commit hf
  held k := held_commit (hr.held k)

theorem stable_numbered : (careful h).Stable (Numbered) := by
  rintro s s' ⟨i, f, hf, rfl⟩ hs
  exact hs.commit hf

theorem stable_ready : (careful h).Stable (Ready c a w) := by
  rintro s s' ⟨i, f, hf, rfl⟩ hs
  exact hs.commit hf

theorem stable_safe : (careful h).Stable (Safe h) := by
  rintro s s' ⟨i, f, hf, rfl⟩ hs
  cases hs with
  | settled hn hp hw => exact .settled (hn.commit hf) (fun k => (hp k).commit) hw
  | ready a w hn hr => exact .ready a w (hn.commit hf) (hr.commit hf)

theorem stable_allPublic : (careful h).Stable fun s => ∀ i, AtPublic i s :=
  fun s s' he hs i => stable_atPublic h i s s' he (hs i)

/-- The call touched at most the names `E` of the pending directory. -/
structure Touches (E : Entry → Prop) (d d' : Disk) : Prop where
  packages : d'.packages = d.packages
  supply : d.supply ≤ d'.supply
  root : d.root = true → d'.root = true
  pending : d.pending = none ∧ d'.pending = none ∨
    ∃ w w', d.pending = some w ∧ d'.pending = some w' ∧ ∀ e, ¬E e → w' e = w e

theorem Touches.of_pending_eq {d d' : Disk} (hp : d'.packages = d.packages)
    (hs : d.supply ≤ d'.supply) (hr : d.root = true → d'.root = true) (hw : d'.pending = d.pending) :
    Touches E d d' where
  packages := hp
  supply := hs
  root := hr
  pending := by
    cases hd : d.pending with
    | none => exact .inl ⟨rfl, hw.trans hd⟩
    | some w => exact .inr ⟨w, w, rfl, hw.trans hd, fun _ _ => rfl⟩

/-- The calls that do so: readers, the workspace, `garbage`, and writes to the names `E`. -/
def Call.Touching (E : Entry → Prop) : Call → Prop
  | .existsDir _ | .attest _ | .names _ | .stat _ | .open _ | .linked .. | .flock _ | .fsync => True
  | .mkdir .root | .openLock => True
  | .unlink .garbage _ | .rmdir .garbage => True
  | .unlink .pending e | .create .pending e | .write .pending e _ | .chown .pending e _ _
  | .chmod .pending e _ => E e
  | .rename .pending old new => E old ∧ E new
  | _ => False

theorem touches_modify {e : Entry} (he : E e) (d : Disk) (g : Inode → Inode) :
    Touches E d (d.modify .pending e g).tick := by
  unfold Disk.modify
  split
  · rename_i w hw
    split
    · exact ⟨rfl, le_succ _, id, .inr ⟨w, _, hw, rfl,
        fun e' he' => update_of_ne (by rintro rfl; exact he' he) ..⟩⟩
    · exact .of_pending_eq rfl (le_succ _) id rfl
  · exact .of_pending_eq rfl (le_succ _) id rfl

variable {call : Call}

theorem Call.Touching.exec (hc : call.Touching E) (d : Disk) : Touches E d (exec h call d).2 := by
  have hne : ∀ {e e' : Entry}, E e → ¬E e' → e' ≠ e := by
    rintro e e' he he' rfl
    exact he' he
  cases call with
  | existsDir _ | attest _ | names _ | stat _ | «open» _ | linked _ _ | flock _ | fsync =>
    exact .of_pending_eq rfl le_rfl id rfl
  | mkdir x =>
    cases x with
    | root => exact .of_pending_eq rfl le_rfl (fun _ => rfl) rfl
    | config | work _ => exact hc.elim
  | openLock => exact .of_pending_eq rfl le_rfl id rfl
  | unlink p e =>
    cases p with
    | garbage =>
      simp only [exec]
      repeat' split
      all_goals exact .of_pending_eq rfl le_rfl id rfl
    | pending =>
      simp only [exec]
      split
      · rename_i w hw
        split
        · exact ⟨rfl, le_rfl, id, .inr ⟨w, _, hw, rfl, fun e' he' => update_of_ne (hne hc he') ..⟩⟩
        · exact .of_pending_eq rfl le_rfl id rfl
      · exact .of_pending_eq rfl le_rfl id rfl
  | rmdir p =>
    cases p with
    | garbage =>
      simp only [exec]
      repeat' split
      all_goals exact .of_pending_eq rfl le_rfl id rfl
    | pending => exact hc.elim
  | create p e =>
    cases p with
    | garbage => exact hc.elim
    | pending =>
      simp only [exec]
      split
      · rename_i w hw
        split
        · exact ⟨rfl, le_succ _, id, .inr ⟨w, _, hw, rfl,
            fun e' he' => update_of_ne (hne hc he') ..⟩⟩
        · exact .of_pending_eq rfl le_rfl id rfl
      · exact .of_pending_eq rfl le_rfl id rfl
  | write p e bytes =>
    cases p with
    | garbage => exact hc.elim
    | pending => exact touches_modify hc d _
  | chown p e uid gid =>
    cases p with
    | garbage => exact hc.elim
    | pending => exact touches_modify hc d _
  | chmod p e mode =>
    cases p with
    | garbage => exact hc.elim
    | pending => exact touches_modify hc d _
  | rename p old new =>
    cases p with
    | garbage => exact hc.elim
    | pending =>
      simp only [exec]
      split
      · rename_i w hw
        split
        · refine ⟨rfl, le_succ _, id, .inr ⟨w, _, hw, rfl, fun e' he' => ?_⟩⟩
          rw [update_of_ne (hne hc.2 he'), update_of_ne (hne hc.1 he')]
        · exact .of_pending_eq rfl le_rfl id rfl
        · exact .of_pending_eq rfl le_rfl id rfl
      · exact .of_pending_eq rfl le_rfl id rfl
  | retire => exact hc.elim
  | exchange i site => exact hc.elim

theorem Call.Touching.torn (hc : call.Touching E) {d d' : Disk} (ht : torn h call d d') :
    Touches E d d' := by
  cases call with
  | write p e bytes =>
    obtain ⟨part, -, rfl⟩ := ht
    cases p with
    | garbage => exact hc.elim
    | pending => exact touches_modify hc d _
  | _ => exact ht.elim

def Scratch (e : Entry) : Prop := e = .acceptedTmp ∨ e = .displaced ∨ e = .displacedTmp

theorem Scratch.ne_swap {e : Entry} (he : Scratch e) (i : Package) : e ≠ .swap i := by
  rcases he with rfl | rfl | rfl <;> simp

section Touched

variable {E : Entry → Prop} {s' : Shared}

section

variable (ht : Touches E s.disk s'.disk) (hl : s'.last = s.last)
include ht hl

theorem Touches.atPublic {i : Package} (hp : AtPublic i s) : AtPublic i s' := by
  intro f hf
  rw [hl] at hf
  rw [ht.packages]
  exact hp f hf

theorem Touches.ours {g : Inode} (hg : Ours s g) : Ours s' g := by
  refine ⟨lt_of_lt_of_le hg.1 ht.supply, ?_⟩
  rw [hl]
  exact hg.2

theorem Touches.numbered (hE : ∀ i, ¬E (.swap i)) (hn : Numbered s) : Numbered s' where
  last i f hf := by
    rw [hl] at hf
    exact lt_of_lt_of_le (hn.last i f hf) ht.supply
  packages i := by
    rw [ht.packages]
    exact lt_of_lt_of_le (hn.packages i) ht.supply
  swap w' i g hw' hg := by
    rcases ht.pending with ⟨-, hnone⟩ | ⟨w, w'', hw, hw'', hrest⟩
    · rw [hw'] at hnone
      cases hnone
    · rw [hw'] at hw''
      cases hw''
      rw [hrest _ (hE i)] at hg
      exact lt_of_lt_of_le (hn.swap w i g hw hg) ht.supply

theorem Touches.ready (hE : ∀ e, E e → Scratch e) (hr : Ready c a w s) :
    ∃ w', Ready c a w' s' ∧ ∀ i, w' (.swap i) = w (.swap i) := by
  rcases ht.pending with ⟨hnone, -⟩ | ⟨w₀, w', hw, hw', hrest⟩
  · rw [hr.pending] at hnone
    cases hnone
  rw [hr.pending] at hw
  cases hw
  have hkeep : ∀ e, ¬Scratch e → w' e = w e := fun e he => hrest e fun hEe => he (hE e hEe)
  have hswap : ∀ i, w' (.swap i) = w (.swap i) := fun i => hkeep _ fun hsc => hsc.ne_swap i rfl
  refine ⟨w', ⟨⟨ht.root hr.root, hw', ?_, ⟨hr.recorded.staged, ?_, ?_⟩, ?_, ?_⟩, ?_⟩, hswap⟩
  · rw [hkeep _ (by simp [Scratch])]; exact hr.marker
  · rw [hkeep _ (by simp [Scratch])]; exact hr.recorded.intent
  · rw [hkeep _ (by simp [Scratch])]; exact hr.recorded.ready
  · exact fun i hi => ht.ours hl (hr.ours i hi)
  · intro i hi
    rw [hswap]; exact hr.unchanged i hi
  · intro i
    rcases hr.held i with hp | hh
    · exact .inl (ht.atPublic hl hp)
    · refine .inr ⟨hh.changed, ?_⟩
      rw [hswap, hl, ht.packages]
      exact hh.swap

theorem Touches.safe (hE : ∀ e, E e → Scratch e) (hs : Safe h s) : Safe h s' := by
  have hn := ht.numbered hl (fun i hsw => (hE _ hsw).ne_swap i rfl) hs.numbered
  cases hs with
  | settled _ hp hw =>
    refine .settled hn (fun i => ht.atPublic hl (hp i)) fun w' hw' => ?_
    rcases ht.pending with ⟨-, hnone⟩ | ⟨w, w'', hw₁, hw₂, hrest⟩
    · rw [hw'] at hnone
      cases hnone
    rw [hw'] at hw₂
    cases hw₂
    refine ⟨ht.root (hw w hw₁).1, ?_⟩
    rw [hrest .ready fun h => by simpa [Scratch] using hE _ h,
      hrest .accepted fun h => by simpa [Scratch] using hE _ h]
    exact (hw w hw₁).2
  | ready a w _ hr =>
    obtain ⟨w', hr', -⟩ := ht.ready hl hE hr
    exact .ready a w' hn hr'

end

end Touched

def Retirable (h : Host) (s : Shared) : Prop := Safe h s ∧ ∀ i, AtPublic i s

theorem stable_retirable : (careful h).Stable (Retirable h) := stable_safe.and stable_allPublic

/-- The calls of `Root::retire`. -/
def Call.Retiring (call : Call) : Prop :=
  call.Touching Scratch ∨ call = .rename .pending .acceptedTmp .accepted ∨ call = .retire

theorem Retirable.step (hc : call.Retiring) {r : Reply call} {s' : Shared} (hs : Retirable h s)
    (hstep : (careful h).step call s r s') : Retirable h s' := by
  have hd : (exec h call s.disk).2 = s'.disk := by rw [hstep.2.1]
  have hl : s'.last = s.last := hstep.2.2
  rcases hc with hc | rfl | rfl
  · have ht := hc.exec (h := h) s.disk
    rw [hd] at ht
    exact ⟨ht.safe hl (fun _ h => h) hs.1, fun i => ht.atPublic hl (hs.2 i)⟩
  · -- the marker goes in place
    have ht : Touches (fun e => e = .acceptedTmp ∨ e = .accepted) s.disk s'.disk := by
      have hcall : (Call.rename .pending .acceptedTmp .accepted).Touching
          (fun e => e = .acceptedTmp ∨ e = .accepted) := ⟨.inl rfl, .inr rfl⟩
      rw [← hd]
      exact hcall.exec s.disk
    have hn := ht.numbered hl (by simp) hs.1.numbered
    have hp : ∀ i, AtPublic i s' := fun i => ht.atPublic hl (hs.2 i)
    refine ⟨?_, hp⟩
    have hroot : ∀ w, s.disk.pending = some w → s.disk.root = true := by
      intro w hw
      cases hs.1 with
      | settled _ _ hw' => exact (hw' w hw).1
      | ready a w' _ hr => exact hr.root
    have hsame : s.disk = s'.disk → Safe h s' := fun hdone => by
      rw [ext' hdone.symm hl]
      exact hs.1
    simp only [exec] at hd
    split at hd
    · rename_i w hw
      split at hd
      · refine .settled hn hp fun w' hw' => ⟨ht.root (hroot w hw), .inr ?_⟩
        rw [← hd] at hw'
        cases hw'
        simp
      · exact hsame hd
      · exact hsame hd
    · exact hsame hd
  · -- the directory goes to `garbage`
    simp only [exec] at hd
    have hsame : s.disk = s'.disk → Retirable h s' := fun hdone => by
      rw [ext' hdone.symm hl]
      exact hs
    split at hd
    · have hp : ∀ i, AtPublic i s' := by
        intro i f hf
        rw [hl] at hf
        rw [← hd]
        exact hs.2 i f hf
      refine ⟨.settled ?_ hp fun w' hw' => ?_, hp⟩
      · have hn := hs.1.numbered
        refine ⟨?_, ?_, ?_⟩
        · rw [hl, ← hd]; exact hn.last
        · rw [← hd]; exact hn.packages
        · intro w i g hw
          rw [← hd] at hw
          cases hw
      · rw [← hd] at hw'
        cases hw'
    · exact hsame hd
    · exact hsame hd

theorem Retirable.torn (hc : call.Retiring) {s' : Shared} (hs : Retirable h s)
    (ht : (careful h).torn call s s') : Stored s' := by
  rcases hc with hc | rfl | rfl
  · have ht' := hc.torn ht.1
    exact (ht'.safe ht.2 (fun _ h => h) hs.1).stored
  · exact ht.1.elim
  · exact ht.1.elim

theorem wp_retiring (hp : p.Only Call.Retiring) (hs : Retirable h s) :
    wp (careful h) (fun _ s' => Retirable h s') Stored p s :=
  hp.wp_inv stable_retirable (fun _ hs => hs.1.stored) (fun _ _ _ hc hs ht => hs.torn hc ht)
    (fun _ _ _ _ hc hs hstep => hs.step hc hstep) hs

theorem wp_touching {J : Shared → Prop} (hJ : (careful h).Stable J) (hI : ∀ s, J s → Stored s)
    (hstep : ∀ s s', Touches Scratch s.disk s'.disk → s'.last = s.last → J s → J s')
    (hp : p.Only (Call.Touching Scratch)) (hs : J s) :
    wp (careful h) (fun _ s' => J s') Stored p s := by
  refine hp.wp_inv hJ hI ?_ ?_ hs
  · intro call s s' hc hs ht
    exact hI s' (hstep s s' (hc.torn ht.1) ht.2 hs)
  · intro call s r s' hc hs hr
    have ht := hc.exec (h := h) s.disk
    rw [show (exec h call s.disk).2 = s'.disk by rw [hr.2.1]] at ht
    exact hstep s s' ht hr.2.2 hs

theorem wp_touchingSafe (hp : p.Only (Call.Touching Scratch)) (hs : Safe h s) :
    EndsSafe h p s :=
  wp_touching stable_safe (fun _ hs => hs.stored)
    (fun _ _ ht hl hs => ht.safe hl (fun _ h => h) hs) hp hs

theorem ReadsAt.touching (hp : ReadsOnly p) (E : Entry → Prop) : p.Only (Call.Touching E) := by
  refine .mono hp fun call hc => ?_
  cases call <;> trivial

theorem touching_call {k : Reply call → Prog α} (hc : call.Touching E)
    (hk : ∀ r, (k r).Only (Call.Touching E)) : (sys call >>= k).Only (Call.Touching E) :=
  ⟨hc, hk⟩

theorem touching_removeEach (es : List Entry) : (Root.removeEach es).Only (Call.Touching E) := by
  induction es with
  | nil => trivial
  | cons e es ih =>
    exact (touching (readsAt_attest _) E).bind fun _ =>
      touching_call (by trivial) fun _ => (touching (readsAt_ensure _ _) E).bind fun _ => ih

theorem touching_cleanRetired : (Root.cleanRetired h).Only (Call.Touching E) := by
  have hread : ∀ {α : Type} {p : Prog α}, ReadsOnly p → p.Only (Call.Touching E) :=
    fun hp => touching hp E
  have hend : (do
      attest (.work .garbage)
      ensure (← sys (Call.rmdir .garbage)) "uci-transaction-io"
      sync .root : Prog Unit).Only (Call.Touching E) :=
    (hread (readsAt_attest _)).bind fun _ => touching_call (by trivial) fun _ =>
      (hread (readsAt_ensure _ _)).bind fun _ => hread (readsAt_sync _)
  refine (hread (readsAt_existsDir _ _)).bind fun found => ?_
  cases found with
  | false => trivial
  | true =>
    refine (hread (readsAt_openDir _)).bind fun _ => (hread (readsOnly_inspect _)).bind fun names => ?_
    split
    · refine (hread (readsOnly_regular _ _ _)).bind fun _ => (hread (readsAt_ensure _ _)).bind
        fun _ => (touching_removeEach _).bind fun _ => (hread (readsAt_sync _)).bind fun _ =>
        touching_call (by trivial) fun _ => (hread (readsAt_ensure _ _)).bind fun _ =>
        (hread (readsAt_sync _)).bind fun _ => hend
    · exact hend

theorem touching_open : (Root.open h).Only (Call.Touching E) := by
  have hread : ∀ {α : Type} {p : Prog α}, ReadsOnly p → p.Only (Call.Touching E) :=
    fun hp => touching hp E
  refine (hread (readsAt_openDir _)).bind fun _ => .bind ?_ fun _ => ?_
  · exact touching_call (by trivial) fun _ => (hread (readsAt_ensure _ _)).bind fun _ =>
      touching_call (by trivial) fun _ => (hread (readsAt_ensure _ _)).bind fun _ =>
      hread (readsAt_attest _)
  · exact touching_call (by trivial) fun _ => (hread (readsAt_ensure _ _)).bind fun _ =>
      (hread readsAt_rootAttest).bind fun _ => touching_cleanRetired

theorem touching_writeNew {e : Entry} (he : E e) (bytes : Bytes) :
    (writeNew h .pending e bytes).Only (Call.Touching E) := by
  have hread : ∀ {α : Type} {p : Prog α}, ReadsOnly p → p.Only (Call.Touching E) :=
    fun hp => touching hp E
  refine (hread (readsAt_attest _)).bind fun _ => touching_call he fun _ =>
    (hread (readsAt_ensure _ _)).bind fun _ => touching_call he fun _ =>
    touching_call (by trivial) fun _ => (hread (readsAt_attest _)).bind fun _ =>
    touching_call (by trivial) fun file => ?_
  cases file with
  | none => trivial
  | some file => exact (hread (readsAt_fileIdentity trivial _ _)).bind fun _ => trivial

/-- `Root::retire` makes only retiring calls. -/
theorem retiring_retire : (Root.retire h).Only Call.Retiring := by
  have htouch : ∀ {α : Type} {p : Prog α}, p.Only (Call.Touching Scratch) → p.Only Call.Retiring :=
    fun hp => Only.mono hp fun _ => .inl
  have hread : ∀ {α : Type} {p : Prog α}, ReadsOnly p → p.Only Call.Retiring :=
    fun hp => htouch (touching hp _)
  have hcall : ∀ {call : Call} {α : Type} {k : Reply call → Prog α}, call.Retiring →
      (∀ r, (k r).Only Call.Retiring) → (sys call >>= k).Only Call.Retiring := fun hc hk => ⟨hc, hk⟩
  have hrenamed : ∀ r, (renamed r).Only Call.Retiring := by
    rintro (_ | _ | _) <;> trivial
  have htmp : Scratch .acceptedTmp := .inl rfl
  -- the marker, written aside and renamed
  have hmark : (do
      writeNew h .pending .acceptedTmp acceptedMark
      renameEntry .pending .acceptedTmp .accepted).Only Call.Retiring := by
    refine (htouch (touching_writeNew htmp _)).bind fun _ => (hread (readsAt_attest _)).bind fun _ =>
      (hread (readsAt_attest _)).bind fun _ => ?_
    exact hcall (.inr (.inl rfl)) fun r => (hrenamed r).bind fun _ =>
      (hread (readsAt_sync _)).bind fun _ => hread (readsAt_sync _)
  have haccepted : (Root.markAccepted h).Only Call.Retiring := by
    refine (hread (readsAt_existsEntry trivial)).bind fun there => ?_
    cases there with
    | true => trivial
    | false =>
      refine (hread (readsAt_existsEntry trivial)).bind fun part => ?_
      cases part with
      | false => exact hmark
      | true =>
        exact (hread (readsOnly_regular _ _ _)).bind fun _ => (hread (readsAt_ensure _ _)).bind
          fun _ => hcall (.inl htmp) fun _ => (hread (readsAt_ensure _ _)).bind fun _ => hmark
  refine (hread (readsOnly_inspect _)).bind fun _ => haccepted.bind fun _ =>
    (hread (readsOnly_regular _ _ _)).bind fun _ => (hread (readsAt_ensure _ _)).bind fun _ =>
    (hread (readsAt_sync _)).bind fun _ => .bind ?_ fun _ => htouch touching_cleanRetired
  refine (hread (readsAt_attest _)).bind fun _ => (hread (readsAt_attest _)).bind fun _ => ?_
  exact hcall (.inr (.inr rfl)) fun r => (hrenamed r).bind fun _ =>
    (hread (readsAt_sync _)).bind fun _ => hread (readsAt_sync _)

end CakeAutorate.UciTransaction
