/-
# The moves keep the invariant

One lemma for each thing that can happen to the world: the calls that change something, the
end of a lease, the death of a process and the moves of tasks and rules.  Each says that the
invariant is kept, under the guard of the call, and what the other processes keep.
-/

import CakeAutorate.ProbeOwner.Ledger

namespace CakeAutorate.ProbeOwner

open Syscall Wire List Function Option Rely

variable {generation : ℕ → Text} {p q : ℕ} {s s' : World} {h : Handle}

def NoDebt (generation : ℕ → Text) (h : Handle) (s : World) : Prop :=
  ∀ t : Handle, t.gid = h.gid → ¬Unsettled generation s.log t

/-- A file that was opened and is not locked yet. -/
structure Opened (p : ℕ) (h : Handle) (s : World) : Prop where
  process : h.process = p
  number : h.number < s.opened
  present : s.files h.gid ≠ none
  unlogged : ∀ contents, .locked h contents ∉ s.log
  unlocked : ∀ gid, s.lock gid ≠ some h

def Guard (generation : ℕ → Text) (p : ℕ) : Call → World → Prop
  | .tryLock h, s => Opened p h s
  | .inventory h, s => h.process = p ∧ s.lock h.gid = some h
  | .recover h _, s => h.process = p ∧ s.lock h.gid = some h ∧ ∀ l ∈ s.leases, l.handle ≠ h
  | .setLen h, s => h.process = p ∧ s.lock h.gid = some h ∧ ⟨h, false⟩ ∉ s.leases ∧
      (∀ t : Handle, t.gid = h.gid → Unsettled generation s.log t → t = h ∧ .cleaned h ∈ s.log) ∧
        ∀ n, ¬s.rules h.gid n
  | .write h _, s => h.process = p ∧ s.lock h.gid = some h ∧ NoDebt generation h s
  | .cleanup h, s => h.process = p ∧ s.lock h.gid = some h
  | .close h, s => h.process = p ∧ ∀ l ∈ s.leases, l.handle ≠ h
  | _, _ => True

variable {gid : UInt32}

theorem put_contents {bytes : Bytes} (hfile : s.files gid = some bytes) :
    update s.files gid (some (s.contents gid)) = s.files := by
  have hcontents : s.contents gid = bytes := by rw [World.contents, hfile, getD_some]
  rw [hcontents, ← hfile, update_eq_self]

theorem inv_openLease (hinv : Inv generation s) (gid : UInt32) :
    Inv generation { s.put gid (s.contents gid) with opened := s.opened + 1 } := by
  refine { hinv with opened := ?_, present := ?_, logged := ?_, fenced := ?_ }
  · intro g t ht
    exact ⟨(hinv.opened g t ht).1, Nat.lt_succ_of_lt (hinv.opened g t ht).2⟩
  · intro g t ht
    by_cases hg : g = gid
    · subst hg
      show update s.files g _ g ≠ none
      rw [update_self]
      exact some_ne_none _
    · show update s.files gid _ g ≠ none
      rw [update_of_ne hg]
      exact hinv.present g t ht
  · exact fun t c ht => Nat.lt_succ_of_lt (hinv.logged t c ht)
  · intro t ht
    have hfile := hinv.fenced t ht
    show update s.files gid _ t.gid = _
    by_cases hg : t.gid = gid
    · subst hg
      rw [put_contents hfile, hfile]
    · rw [update_of_ne hg, hfile]

theorem rely_openLease (hinv : Inv generation s) (gid : UInt32) :
    Rely generation p s { s.put gid (s.contents gid) with opened := s.opened + 1 } := by
  refine { (refl : Rely generation p s s) with
    opened := Nat.le_succ _, present := ?_, slot := ?_ }
  · intro g hg
    show update s.files gid _ g ≠ none
    by_cases hgid : g = gid
    · rw [hgid, update_self]
      exact some_ne_none _
    · rwa [update_of_ne hgid]
  · intro t ht hlock
    refine { (refl : Rely generation p s s).slot t ht hlock with file := ?_ }
    show update s.files gid _ t.gid = _
    by_cases hgid : t.gid = gid
    · obtain ⟨bytes, hbytes⟩ := ne_none_iff_exists'.mp (hinv.present _ _ hlock)
      rw [← hgid, put_contents hbytes]
    · rw [update_of_ne hgid]

theorem inv_tryLock (hinv : Inv generation s) (hopen : Opened p h s) (hfree : s.lock h.gid = none) :
    Inv generation { s.record (.locked h (s.contents h.gid)) with
      lock := update s.lock h.gid (some h) } := by
  have hlock : ∀ gid t, update s.lock h.gid (some h) gid = some t →
      (gid = h.gid ∧ t = h) ∨ s.lock gid = some t := by
    intro gid t ht
    by_cases hgid : gid = h.gid
    · subst hgid
      rw [update_self] at ht
      exact .inl ⟨rfl, (some.inj ht).symm⟩
    · rw [update_of_ne hgid] at ht
      exact .inr ht
  refine { hinv with opened := ?_, present := ?_, logged := ?_, held := ?_, admitted := ?_ }
  · intro gid t ht
    rcases hlock gid t ht with ⟨rfl, rfl⟩ | hold
    · exact ⟨rfl, hopen.number⟩
    · exact hinv.opened gid t hold
  · intro gid t ht
    rcases hlock gid t ht with ⟨rfl, rfl⟩ | hold
    · exact hopen.present
    · exact hinv.present gid t hold
  · intro t c ht
    rcases mem_cons.mp ht with heq | hold
    · obtain ⟨rfl, -⟩ := Entry.locked.inj heq
      exact hopen.number
    · exact hinv.logged t c hold
  · intro l hl
    have hother : l.handle.gid ≠ h.gid := by
      intro hgid
      have := hinv.held l hl
      rw [hgid, hfree] at this
      cases this
    exact (update_of_ne hother _ _).trans (hinv.held l hl)
  · exact admitted_cons hinv.admitted fun t ht => by cases ht

theorem only_tryLock (hfree : s.lock h.gid = none) :
    Only h s { s.record (.locked h (s.contents h.gid)) with
      lock := update s.lock h.gid (some h) } :=
  { only_refl (.inl hfree) with
    log := .inr ⟨_, rfl, rfl⟩
    lock := fun _ hgid => update_of_ne hgid _ _
    owner := .inr (update_self _ _ _) }

section

variable (hinv : Inv generation s)
include hinv

/-- An entry after which at most less is owed, but nothing that a lease or a rule stands for. -/
theorem Inv.record_less {e : Entry}
    (hless : ∀ t, Unsettled generation (e :: s.log) t → Unsettled generation s.log t)
    (hkept : ∀ t, Unsettled generation s.log t →
      ⟨t, false⟩ ∈ s.leases ∨ s.rules t.gid (generation t.process) →
        Unsettled generation (e :: s.log) t)
    (hlocked : ∀ t c, e ≠ .locked t c) (hgranted : ∀ t, e ≠ .granted t) :
    Inv generation (s.record e) := by
  refine { hinv with
    logged := ?_, fenced := ?_, alone := ?_, owing := ?_, admitted := ?_,
    rules := ?_ }
  · intro t c ht
    rcases mem_cons.mp ht with heq | hold
    · exact absurd heq.symm (hlocked t c)
    · exact hinv.logged t c hold
  · exact fun t ht => hinv.fenced t (hless t ht)
  · exact fun l hl t hgid ht => hinv.alone l hl t hgid (hless t ht)
  · exact fun t ht => hkept t (hinv.owing t ht) (.inl ht)
  · exact admitted_cons hinv.admitted fun t ht => absurd ht (hgranted t)
  · intro gid n hn
    obtain ⟨t, rfl, rfl, ht⟩ := hinv.rules gid n hn
    exact ⟨t, rfl, rfl, hkept t ht (.inr hn)⟩

theorem Inv.record {e : Entry}
    (hsame : ∀ t, Unsettled generation (e :: s.log) t ↔ Unsettled generation s.log t)
    (hlocked : ∀ t c, e ≠ .locked t c) (hgranted : ∀ t, e ≠ .granted t) :
    Inv generation (s.record e) :=
  hinv.record_less (fun t => (hsame t).mp) (fun t ht _ => (hsame t).mpr ht) hlocked hgranted

theorem Inv.settle {n : Text} (hrules : s.SettleRules gid n s') : Inv generation s' := by
  obtain ⟨rules, rfl, hless, -⟩ := hrules
  exact { hinv with rules := fun g m hm => hinv.rules g m (hless g m hm) }

theorem inv_recovered {stale : Text} (hlock : s.lock h.gid = some h)
    (hlease : ∀ l ∈ s.leases, l.handle ≠ h) (hrule : ¬s.rules h.gid stale) :
    Inv generation (s.record (.recovered h stale (s.tasks h.gid))) := by
  refine hinv.record_less (fun t ht => ht.1) (fun t ht hstands => ⟨ht, fun hall => ?_⟩) nofun nofun
  rcases hstands with hl | hn
  · exact hlease _ hl (hinv.lease_eq hl hlock hall.1)
  · refine hrule ?_
    rw [← hall.1, ← hall.2.1]
    exact hn

theorem Inv.put {bytes : Bytes} (hdebt : NoDebt generation h s) :
    Inv generation (s.put h.gid bytes) := by
  refine { hinv with present := ?_, fenced := ?_ }
  · intro gid t ht
    show update s.files h.gid _ gid ≠ none
    by_cases hgid : gid = h.gid
    · rw [hgid, update_self]
      exact some_ne_none _
    · rw [update_of_ne hgid]
      exact hinv.present gid t ht
  · intro t ht
    have hgid : t.gid ≠ h.gid := fun heq => hdebt t heq ht
    exact (update_of_ne hgid _ _).trans (hinv.fenced t ht)

theorem inv_setLen (hguard : Guard generation p (.setLen h) s) :
    Inv generation ((s.put h.gid []).record (.cleared h)) := by
  obtain ⟨-, hlock, hgiven, hdebt, hrules⟩ := hguard
  -- clearing comes first in the log, so that nothing is owed when the bytes go
  have hcleared : Inv generation (s.record (.cleared h)) := by
    refine hinv.record_less (fun t ht => ht.1) (fun t ht hstands => ⟨ht, fun hboth => ?_⟩) nofun
      nofun
    rcases hstands with hl | hn
    · rw [hboth.1] at hl
      exact hgiven hl
    · rw [hboth.1] at hn
      exact hrules _ hn
  have hnone : NoDebt generation h (s.record (.cleared h)) :=
    fun t hgid ht => ht.2 (hdebt t hgid ht.1)
  exact hcleared.put hnone

theorem Inv.close (h : Handle) : Inv generation (s.close h) := by
  have hlock : ∀ gid t, (s.close h).lock gid = some t → s.lock gid = some t := by
    intro gid t ht
    replace ht : (if s.lock gid = some h then none else s.lock gid) = some t := ht
    split at ht
    · cases ht
    · exact ht
  have hleases : ∀ l ∈ (s.close h).leases, l ∈ s.leases ∧ l.handle ≠ h := by
    intro l hl
    obtain ⟨hmem, hne⟩ := mem_filter.mp hl
    exact ⟨hmem, of_decide_eq_true hne⟩
  refine { hinv with
    opened := ?_, present := ?_, held := ?_, alone := ?_, owing := ?_,
    single := hinv.single.filter _ }
  · exact fun gid t ht => hinv.opened gid t (hlock gid t ht)
  · exact fun gid t ht => hinv.present gid t (hlock gid t ht)
  · intro l hl
    obtain ⟨hmem, hne⟩ := hleases l hl
    have hheld := hinv.held l hmem
    refine (if_neg fun hsame => hne ?_).trans hheld
    rw [hheld] at hsame
    exact some.inj hsame
  · exact fun l hl => hinv.alone l (hleases l hl).1
  · exact fun t ht => hinv.owing t (hleases _ ht).1

end

theorem close_eq_self (hlock : ∀ gid, s.lock gid ≠ some h) (hlease : ∀ l ∈ s.leases, l.handle ≠ h) :
    s.close h = s := by
  have hlocks : (fun gid => if s.lock gid = some h then none else s.lock gid) = s.lock :=
    funext fun gid => if_neg (hlock gid)
  have hleases : s.leases.filter (fun l => l.handle ≠ h) = s.leases :=
    filter_eq_self.mpr fun l hl => decide_eq_true (hlease l hl)
  rw [World.close, hlocks, hleases]

theorem rely_close (hinv : Inv generation s) (hlease : ∀ l ∈ s.leases, l.handle ≠ h)
    (hq : q ≠ h.process) : Rely generation q s (s.close h) := by
  by_cases hlock : s.lock h.gid = some h
  · exact (only_close hlock hinv).rely_locked hlock hq
  · have hnone : ∀ gid, s.lock gid ≠ some h := by
      intro gid hgid
      obtain rfl := (hinv.opened gid h hgid).1
      exact hlock hgid
    rw [close_eq_self hnone hlease]
    exact .refl

theorem Inv.dead (hinv : Inv generation s) (p : ℕ) : Inv generation (s.dead p) := by
  have hlock : ∀ gid t, (s.dead p).lock gid = some t → s.lock gid = some t :=
    fun gid t ht => (filter_eq_some_iff.mp ht).1
  have hleases : ∀ l ∈ (s.dead p).leases, l ∈ s.leases ∧ l.handle.process ≠ p := by
    intro l hl
    obtain ⟨hmem, hne⟩ := mem_filter.mp hl
    exact ⟨hmem, of_decide_eq_true hne⟩
  refine { hinv with
    opened := ?_, present := ?_, held := ?_, alone := ?_, owing := ?_,
    single := hinv.single.filter _ }
  · exact fun gid t ht => hinv.opened gid t (hlock gid t ht)
  · exact fun gid t ht => hinv.present gid t (hlock gid t ht)
  · intro l hl
    obtain ⟨hmem, hne⟩ := hleases l hl
    exact filter_eq_some_iff.mpr ⟨hinv.held l hmem, decide_eq_true hne⟩
  · exact fun l hl => hinv.alone l (hleases l hl).1
  · exact fun t ht => hinv.owing t (hleases _ ht).1

theorem rely_dead (hq : q ≠ p) : Rely generation q s (s.dead p) := by
  refine { (refl : Rely generation q s s) with lock := ?_, slot := ?_ }
  · exact fun gid t _ ht => (filter_eq_some_iff.mp ht).1
  · intro t ht hlock
    have hne : t.process ≠ p := fun heq => hq (ht.symm.trans heq)
    refine { (refl : Rely generation q s s).slot t ht hlock with lock := ?_, leases := ?_ }
    · exact filter_eq_some_iff.mpr ⟨hlock, decide_eq_true hne⟩
    · intro b
      show _ ∈ s.leases.filter _ ↔ _
      rw [mem_filter]
      exact and_iff_left (decide_eq_true hne)

theorem inv_granted (hinv : Inv generation s) (hlock : s.lock h.gid = some h)
    (hlease : ∀ l ∈ s.leases, l.handle ≠ h) (hdebt : NoDebt generation h s)
    (hfile : s.files h.gid = some (receiptOf generation h))
    (hadmitted : Admitted generation s.log h) :
    Inv generation { s.record (.granted h) with leases := ⟨h, false⟩ :: s.leases } := by
  have hother : ∀ l ∈ s.leases, l.handle.gid ≠ h.gid := fun l hl hgid =>
    hlease l hl (hinv.lease_eq hl hlock hgid)
  refine { hinv with
    logged := ?_, fenced := ?_, held := ?_, alone := ?_, owing := ?_,
    single := ?_, admitted := ?_, rules := ?_ }
  · intro t c ht
    rcases mem_cons.mp ht with heq | hold
    · cases heq
    · exact hinv.logged t c hold
  · rintro t (rfl | ht)
    · exact hfile
    · exact hinv.fenced t ht
  · intro l hl
    rcases mem_cons.mp hl with rfl | hold
    · exact hlock
    · exact hinv.held l hold
  · intro l hl t hgid ht
    rcases mem_cons.mp hl with rfl | hold
    · rcases ht with rfl | ht
      · rfl
      · exact absurd ht (hdebt t hgid)
    · rcases ht with rfl | ht
      · exact absurd hgid.symm (hother l hold)
      · exact hinv.alone l hold t hgid ht
  · intro t ht
    rcases mem_cons.mp ht with heq | hold
    · exact .inl (congrArg Lease.handle heq)
    · exact .inr (hinv.owing t hold)
  · refine pairwise_cons.mpr ⟨?_, hinv.single⟩
    exact fun l hl => (hother l hl).symm
  · refine admitted_cons hinv.admitted ?_
    intro t ht
    obtain rfl := Entry.granted.inj ht
    exact hadmitted
  · intro gid n hn
    obtain ⟨t, hgid, hgeneration, ht⟩ := hinv.rules gid n hn
    exact ⟨t, hgid, hgeneration, .inr ht⟩

theorem only_granted (hlock : s.lock h.gid = some h) :
    Only h s { s.record (.granted h) with leases := ⟨h, false⟩ :: s.leases } := by
  refine { only_refl (.inr hlock) with log := .inr ⟨_, rfl, rfl⟩, leases := ?_ }
  intro l hl
  refine ⟨fun hmem => ?_, mem_cons_of_mem _⟩
  rcases mem_cons.mp hmem with rfl | hold
  · exact absurd rfl hl
  · exact hold

theorem inv_retireFailed (hinv : Inv generation s) (hlock : s.lock h.gid = some h)
    (hfile : s.files h.gid = some (receiptOf generation h)) :
    Inv generation (s.record (.retireFailed h)) := by
  refine { hinv with
    logged := ?_, fenced := ?_, alone := ?_, owing := ?_, admitted := ?_,
    rules := ?_ }
  · intro t c ht
    rcases mem_cons.mp ht with heq | hold
    · cases heq
    · exact hinv.logged t c hold
  · rintro t (rfl | ht)
    · exact hfile
    · exact hinv.fenced t ht
  · rintro l hl t hgid (rfl | ht)
    · exact (hinv.lease_eq hl hlock hgid.symm).symm
    · exact hinv.alone l hl t hgid ht
  · exact fun t ht => .inr (hinv.owing t ht)
  · exact admitted_cons hinv.admitted fun t ht => by cases ht
  · intro gid n hn
    obtain ⟨t, hgid, hgeneration, ht⟩ := hinv.rules gid n hn
    exact ⟨t, hgid, hgeneration, .inr ht⟩

theorem mem_give {l : Lease} : l ∈ (s.give h).leases ↔
    (l ∈ s.leases ∧ l.handle ≠ h) ∨ (l = ⟨h, true⟩ ∧ ∃ l' ∈ s.leases, l'.handle = h) := by
  constructor
  · intro hl
    obtain ⟨l', hl', heq⟩ := mem_map.mp hl
    by_cases hh : l'.handle = h
    · rw [if_pos hh] at heq
      refine .inr ⟨?_, l', hl', hh⟩
      rw [← heq, hh]
    · rw [if_neg hh] at heq
      subst heq
      exact .inl ⟨hl', hh⟩
  · rintro (⟨hl, hne⟩ | ⟨rfl, l', hl', hh⟩)
    · exact mem_map.mpr ⟨l, hl, if_neg hne⟩
    · refine mem_map.mpr ⟨l', hl', ?_⟩
      rw [if_pos hh, ← hh]

theorem Inv.give (hinv : Inv generation s) (h : Handle) : Inv generation (s.give h) := by
  have hold : ∀ l ∈ (s.give h).leases, ∃ l' ∈ s.leases, l'.handle = l.handle := by
    intro l hl
    rcases mem_give.mp hl with ⟨hmem, -⟩ | ⟨rfl, l', hmem, hh⟩
    · exact ⟨l, hmem, rfl⟩
    · exact ⟨l', hmem, hh⟩
  have hhandle : ∀ l : Lease,
      (if l.handle = h then { l with retiring := true } else l).handle = l.handle := by
    intro l
    split
    · rfl
    · rfl
  refine { hinv with held := ?_, alone := ?_, owing := ?_, single := ?_ }
  · intro l hl
    obtain ⟨l', hl', heq⟩ := hold l hl
    rw [← heq]
    exact hinv.held l' hl'
  · intro l hl t hgid ht
    obtain ⟨l', hl', heq⟩ := hold l hl
    rw [← heq] at hgid ⊢
    exact hinv.alone l' hl' t hgid ht
  · intro t ht
    rcases mem_give.mp ht with ⟨hmem, -⟩ | ⟨heq, -⟩
    · exact hinv.owing t hmem
    · cases heq
  · refine pairwise_map.mpr (hinv.single.imp ?_)
    intro l l' hne
    rw [hhandle, hhandle]
    exact hne

theorem only_give (hlock : s.lock h.gid = some h) : Only h s (s.give h) := by
  refine { only_refl (.inr hlock) with leases := ?_ }
  intro l hl
  have hne : l.handle ≠ h := fun heq => hl (congrArg Handle.gid heq)
  rw [mem_give]
  constructor
  · rintro (⟨hmem, -⟩ | ⟨rfl, -⟩)
    · exact hmem
    · exact absurd rfl hne
  · exact fun hmem => .inl ⟨hmem, hne⟩

theorem Inv.carry (hinv : Inv generation s) (gid : UInt32) (n : ℕ) :
    Inv generation (s.carry gid n) :=
  { hinv with }

theorem rely_carry {n : ℕ} (hzero : ∀ t : Handle, t.gid = gid →
    t.process = q → s.lock gid = some t → ⟨t, false⟩ ∉ s.leases → s.tasks gid = 0 → n = 0) :
    Rely generation q s (s.carry gid n) := by
  refine { (refl : Rely generation q s s) with slot := ?_ }
  intro t ht hlock
  refine { (refl : Rely generation q s s).slot t ht hlock with tasks := ?_ }
  intro hnone htasks
  show update s.tasks gid n t.gid = 0
  by_cases hgid : t.gid = gid
  · subst hgid
    rw [update_self]
    exact hzero t rfl ht hlock hnone htasks
  · rw [update_of_ne hgid, htasks]

/-- **The moves of tasks and rules.** -/
theorem kept_world (hinv : Inv generation s) (hmove : Moves generation s s') :
    Inv generation s' ∧ ∀ q, Rely generation q s s' := by
  cases hmove with
  | fork hsome =>
    refine ⟨hinv.carry _ _, fun q => rely_carry ?_⟩
    intro t _ _ _ _ hzero
    omega
  | exit =>
    refine ⟨hinv.carry _ _, fun q => rely_carry ?_⟩
    intro t _ _ _ _ hzero
    omega
  | spawn hlease =>
    refine ⟨hinv.carry _ _, fun q => rely_carry ?_⟩
    intro t _ _ hlock hnone _
    have hheld := hinv.held _ hlease
    rw [hlock] at hheld
    rw [some.inj hheld] at hnone
    exact absurd hlease hnone
  | install hlease =>
    rename_i h
    refine ⟨{ hinv with rules := ?_ }, fun q => ?_⟩
    · rintro gid n (hold | ⟨rfl, rfl⟩)
      · exact hinv.rules gid n hold
      · exact ⟨h, rfl, rfl, hinv.owing h hlease⟩
    · refine { (refl : Rely generation q s s) with slot := ?_ }
      intro t ht hlock
      refine { (refl : Rely generation q s s).slot t ht hlock with rules := ?_ }
      rintro hnone n (hold | ⟨hgid, -⟩)
      · exact hold
      · have hheld := hinv.held _ hlease
        rw [← hgid, hlock] at hheld
        rw [some.inj hheld] at hnone
        exact absurd hlease hnone

end CakeAutorate.ProbeOwner
