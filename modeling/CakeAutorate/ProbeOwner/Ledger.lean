/-
# What is owed for a slot

The log read as a ledger: a tenure of a slot is unsettled from its grant until its retirement clears
the receipt after a successful cleanup, or until a recovery of its generation returns while no task
carries the group; a retirement that fails leaves it unsettled.
-/

import CakeAutorate.ProbeOwner.Slots

namespace CakeAutorate.ProbeOwner

open Syscall Wire List

variable (generation : ℕ → Text)

def Entry.handle : Entry → Handle
  | .locked h _ | .inventoried h _ _ | .recovered h _ _ | .granted h | .cleaned h | .cleared h
  | .retireFailed h => h

def Unsettled : List Entry → Handle → Prop
  | [], _ => False
  | .granted h :: log, t => t = h ∨ Unsettled log t
  | .retireFailed h :: log, t => t = h ∨ Unsettled log t
  | .cleared h :: log, t => Unsettled log t ∧ ¬(t = h ∧ .cleaned h ∈ log)
  | .recovered h stale tasks :: log, t =>
    Unsettled log t ∧ ¬(t.gid = h.gid ∧ generation t.process = stale ∧ tasks = 0)
  | .locked _ _ :: log, t => Unsettled log t
  | .inventoried _ _ _ :: log, t => Unsettled log t
  | .cleaned _ :: log, t => Unsettled log t

/-- What the log shows of an attempt whose lease is granted: the slot was empty, or its receipt was
exact and recovered while no task carried the group; and the inventory found nobody while the lock
was held. -/
structure Admitted (log : List Entry) (h : Handle) : Prop where
  found : ∃ contents, .locked h contents ∈ log
  settled : ∀ contents, .locked h contents ∈ log → contents = [] ∨
    ∃ stale, stale ≠ generation h.process ∧ fromUtf8 contents = some (receipt h.gid stale) ∧
      .recovered h stale 0 ∈ log
  absent : .inventoried h false true ∈ log

def receiptOf (h : Handle) : Bytes := utf8 (receipt h.gid (generation h.process))

/-- **The invariant.** -/
structure Inv (s : World) : Prop where
  opened : ∀ gid h, s.lock gid = some h → h.gid = gid ∧ h.number < s.opened
  present : ∀ gid h, s.lock gid = some h → s.files gid ≠ none
  logged : ∀ h contents, .locked h contents ∈ s.log → h.number < s.opened
  fenced : ∀ h, Unsettled generation s.log h → s.files h.gid = some (receiptOf generation h)
  held : ∀ l ∈ s.leases, s.lock l.handle.gid = some l.handle
  alone : ∀ l ∈ s.leases, ∀ h, h.gid = l.handle.gid → Unsettled generation s.log h → h = l.handle
  owing : ∀ h, ⟨h, false⟩ ∈ s.leases → Unsettled generation s.log h
  single : s.leases.Pairwise fun l l' => l.handle.gid ≠ l'.handle.gid
  admitted : ∀ newer h older, s.log = newer ++ .granted h :: older → Admitted generation older h
  rules : ∀ gid n, s.rules gid n →
    ∃ h, h.gid = gid ∧ generation h.process = n ∧ Unsettled generation s.log h

/-- What stays of a slot that a process has locked. -/
structure Same (h : Handle) (s s' : World) : Prop where
  lock : s'.lock h.gid = some h
  file : s'.files h.gid = s.files h.gid
  unsettled : ∀ t : Handle, t.gid = h.gid →
    (Unsettled generation s'.log t ↔ Unsettled generation s.log t)
  leases : ∀ retiring, ⟨h, retiring⟩ ∈ s'.leases ↔ ⟨h, retiring⟩ ∈ s.leases
  tasks : ⟨h, false⟩ ∉ s.leases → s.tasks h.gid = 0 → s'.tasks h.gid = 0
  rules : ⟨h, false⟩ ∉ s.leases → ∀ n, s'.rules h.gid n → s.rules h.gid n

/-- What a process may rely on between its steps. -/
structure Rely (p : ℕ) (s s' : World) : Prop where
  log : s.log <:+ s'.log
  logged : ∀ h contents, h.process = p → .locked h contents ∈ s'.log → .locked h contents ∈ s.log
  lock : ∀ gid h, h.process = p → s'.lock gid = some h → s.lock gid = some h
  opened : s.opened ≤ s'.opened
  present : ∀ gid, s.files gid ≠ none → s'.files gid ≠ none
  slot : ∀ h, h.process = p → s.lock h.gid = some h → Same generation h s s'

variable {generation} {p : ℕ} {s s' s'' : World} {h : Handle}

theorem Rely.refl : Rely generation p s s where
  log := suffix_refl _
  logged _ _ _ hmem := hmem
  lock _ _ _ hlock := hlock
  opened := Nat.le_refl _
  present _ hfile := hfile
  slot _ _ hlock :=
    ⟨hlock, rfl, fun _ _ => Iff.rfl, fun _ => Iff.rfl, fun _ ht => ht, fun _ _ hn => hn⟩

theorem Rely.trans (h₁ : Rely generation p s s') (h₂ : Rely generation p s' s'') :
    Rely generation p s s'' where
  log := h₁.log.trans h₂.log
  logged h c hp hmem := h₁.logged h c hp (h₂.logged h c hp hmem)
  lock gid h hp hlock := h₁.lock gid h hp (h₂.lock gid h hp hlock)
  opened := Nat.le_trans h₁.opened h₂.opened
  present gid hfile := h₂.present gid (h₁.present gid hfile)
  slot h hp hlock := by
    have hfirst := h₁.slot h hp hlock
    have hsecond := h₂.slot h hp hfirst.lock
    refine ⟨hsecond.lock, hsecond.file.trans hfirst.file, ?_, ?_, ?_, ?_⟩
    · exact fun t ht => (hsecond.unsettled t ht).trans (hfirst.unsettled t ht)
    · exact fun b => (hsecond.leases b).trans (hfirst.leases b)
    · intro hnone htasks
      exact hsecond.tasks (fun hmem => hnone ((hfirst.leases false).mp hmem))
        (hfirst.tasks hnone htasks)
    · intro hnone n hn
      exact hfirst.rules hnone n
        (hsecond.rules (fun hmem => hnone ((hfirst.leases false).mp hmem)) n hn)

theorem unsettled_other {e : Entry} {log : List Entry} {t : Handle} (hne : t.gid ≠ e.handle.gid) :
    Unsettled generation (e :: log) t ↔ Unsettled generation log t := by
  have hhandle : t ≠ e.handle := fun heq => hne (congrArg Handle.gid heq)
  cases e with
  | granted h => exact or_iff_right hhandle
  | retireFailed h => exact or_iff_right hhandle
  | cleared h => exact and_iff_left fun hboth => hhandle hboth.1
  | recovered h stale tasks => exact and_iff_left fun hall => hne hall.1
  | _ => exact Iff.rfl

theorem admitted_cons {e : Entry} {log : List Entry}
    (hlog : ∀ newer h older, log = newer ++ .granted h :: older → Admitted generation older h)
    (he : ∀ h, e = .granted h → Admitted generation log h) :
    ∀ newer h older, e :: log = newer ++ .granted h :: older → Admitted generation older h := by
  intro newer h older heq
  cases newer with
  | nil =>
    obtain ⟨hhead, htail⟩ := cons.inj heq
    rw [← htail]
    exact he h hhead
  | cons e' newer => exact hlog newer h older (cons.inj heq).2

theorem Inv.lease_eq (hinv : Inv generation s) {l : Lease} (hl : l ∈ s.leases)
    (hlock : s.lock h.gid = some h) (hgid : l.handle.gid = h.gid) : l.handle = h := by
  have := hinv.held l hl
  rw [hgid, hlock] at this
  exact (Option.some.inj this).symm

/-- Only the slot of a handle changes, and at most one entry about it is recorded. -/
structure Only (h : Handle) (s s' : World) : Prop where
  opened : s'.opened = s.opened
  log : s'.log = s.log ∨ ∃ e, e.handle = h ∧ s'.log = e :: s.log
  lock : ∀ gid, gid ≠ h.gid → s'.lock gid = s.lock gid
  owner : s'.lock h.gid = none ∨ s'.lock h.gid = some h
  files : ∀ gid, gid ≠ h.gid → s'.files gid = s.files gid
  present : s.files h.gid ≠ none → s'.files h.gid ≠ none
  tasks : ∀ gid, gid ≠ h.gid → s'.tasks gid = s.tasks gid
  rules : ∀ gid n, gid ≠ h.gid → (s'.rules gid n ↔ s.rules gid n)
  leases : ∀ l : Lease, l.handle.gid ≠ h.gid → (l ∈ s'.leases ↔ l ∈ s.leases)

/-- **A move of one slot** leaves the slots of others alone. -/
theorem Only.rely (honly : Only h s s') (hp : h.process ≠ p)
    (hfree : ∀ t : Handle, t.process = p → s.lock h.gid ≠ some t) : Rely generation p s s' where
  log := by
    rcases honly.log with heq | ⟨e, -, heq⟩
    · rw [heq]
    · rw [heq]
      exact suffix_cons e s.log
  logged t c ht hmem := by
    rcases honly.log with heq | ⟨e, he, heq⟩
    · rwa [heq] at hmem
    · rw [heq] at hmem
      rcases mem_cons.mp hmem with rfl | hold
      · obtain rfl : t = h := he
        exact absurd ht hp
      · exact hold
  lock gid t ht hlock := by
    by_cases hgid : gid = h.gid
    · subst hgid
      rcases honly.owner with hnone | hsome
      · rw [hnone] at hlock
        cases hlock
      · rw [hsome] at hlock
        cases hlock
        exact absurd ht hp
    · rwa [honly.lock gid hgid] at hlock
  opened := Nat.le_of_eq honly.opened.symm
  present gid hfile := by
    by_cases hgid : gid = h.gid
    · subst hgid
      exact honly.present hfile
    · rwa [honly.files gid hgid]
  slot t ht hlock := by
    have hgid : t.gid ≠ h.gid := fun heq => hfree t ht (heq ▸ hlock)
    refine ⟨?_, honly.files _ hgid, ?_, ?_, ?_, ?_⟩
    · rw [honly.lock _ hgid, hlock]
    · intro u hu
      rcases honly.log with heq | ⟨e, he, heq⟩
      · rw [heq]
      · rw [heq]
        refine unsettled_other ?_
        rw [he, hu]
        exact hgid
    · exact fun b => honly.leases _ hgid
    · intro _ htasks
      rw [honly.tasks _ hgid, htasks]
    · exact fun _ n hn => (honly.rules _ n hgid).mp hn

theorem Only.rely_locked (honly : Only h s s') (hlock : s.lock h.gid = some h) {q : ℕ}
    (hq : q ≠ h.process) : Rely generation q s s' := by
  refine honly.rely (Ne.symm hq) ?_
  intro t ht heq
  rw [hlock] at heq
  exact hq (by rw [← ht, ← Option.some.inj heq])

theorem only_refl (hlock : s.lock h.gid = none ∨ s.lock h.gid = some h) : Only h s s :=
  ⟨rfl, .inl rfl, fun _ _ => rfl, hlock, fun _ _ => rfl, id, fun _ _ => rfl,
    fun _ _ _ => Iff.rfl, fun _ _ => Iff.rfl⟩

theorem Only.record {e : Entry} (honly : Only h s s') (hlog : s'.log = s.log)
    (he : e.handle = h) : Only h s (s'.record e) :=
  { honly with log := .inr ⟨e, he, congrArg (e :: ·) hlog⟩ }

theorem Only.put {bytes : Bytes} (honly : Only h s s') : Only h s (s'.put h.gid bytes) :=
  { honly with
    files := fun gid hgid => by
      rw [← honly.files gid hgid]
      exact Function.update_of_ne hgid _ _
    present := fun _ => by
      show Function.update s'.files h.gid (some bytes) h.gid ≠ none
      rw [Function.update_self]
      exact Option.some_ne_none _ }

theorem only_settle {n : Text} (hlock : s.lock h.gid = some h)
    (hrules : s.SettleRules h.gid n s') : Only h s s' := by
  obtain ⟨rules, rfl, hless, hmore⟩ := hrules
  refine { only_refl (.inr hlock) with rules := ?_ }
  intro gid m hgid
  exact ⟨hless gid m, fun hm => hmore gid m hm fun hboth => hgid hboth.1⟩

theorem only_close (hlock : s.lock h.gid = some h) (hinv : Inv generation s) :
    Only h s (s.close h) := by
  refine { only_refl (.inr hlock) with lock := ?_, owner := .inl (if_pos hlock), leases := ?_ }
  · intro gid hgid
    refine if_neg fun hother => hgid ?_
    exact (hinv.opened gid h hother).1.symm
  · intro l hl
    show l ∈ s.leases.filter _ ↔ _
    rw [mem_filter]
    refine and_iff_left (decide_eq_true fun heq => hl ?_)
    rw [heq]

end CakeAutorate.ProbeOwner
