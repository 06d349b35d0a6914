/-
# Slots are not reused over unsettled state

Every move of the processes keeps the contract, as long as the sync of a retirement does not fail:
the receipt is cleared before that sync, so a retirement that fails there has opened its slot.
-/

import CakeAutorate.ProbeOwner.Admission

namespace CakeAutorate.ProbeOwner

open Syscall Wire Override Rely

variable {generation : ℕ → Text} {pool : List UInt32} {p : ℕ} {s t : World} {h : Handle}

def GrantPost (generation : ℕ → Text) (p : ℕ) : Except String (Option Handle) → World → Prop
  | .ok (some lease), s => Ready generation p lease s
  | _, _ => True

theorem safe_closing {slot : Prog (Option Handle)}
    (hslot : SafeFor generation p (SlotPost generation p h) slot s) :
    SafeFor generation p (GrantPost generation p) (closing h slot) s := by
  have hclose : ∀ {α : Type} {Q : Except String α → World → Prop} {r : Except String α} {u : World},
      Closable p h u → (∀ v, Q r v) →
      SafeFor generation p Q (call (.close h) >>= fun _ => .ret r) u := by
    intro α Q r u hu hQ
    refine safe_call fun v hv hinv => ?_
    have hclosable := hu.moved hv hinv
    refine ⟨⟨hclosable.process, hclosable.lease⟩, fun _ w _ _ _ => ?_⟩
    exact safe_ret fun x _ _ => hQ x
  have hattempt : SafeFor generation p
      (fun r u => ∃ r', r = .ok r' ∧ SlotPost generation p h r' u) slot.attempt s :=
    Safe.attempt (hslot.mono fun r u _ hr => ⟨r, rfl, hr⟩)
  refine .bind ?_ ?_ (fun _ => .refl) hattempt
  · rintro e u _ ⟨r', heq, -⟩
    cases heq
  · rintro r u _ ⟨r', heq, hr⟩
    cases heq
    cases r with
    | error e => exact hclose hr fun _ => trivial
    | ok found =>
      cases found with
      | none => exact hclose hr fun _ => trivial
      | some lease =>
        obtain ⟨rfl, hready⟩ := hr
        exact safe_ret fun v hv _ => hready.moved hv

theorem opened_fresh (hinv : Inv generation s) (gid : UInt32) :
    Opened p ⟨p, s.opened, gid⟩ { s.put gid (s.contents gid) with opened := s.opened + 1 } where
  process := rfl
  number := Nat.lt_succ_self _
  present := by
    show Function.update s.files gid _ gid ≠ none
    rw [Function.update_self]
    exact Option.some_ne_none _
  unlogged c hc := absurd (hinv.logged _ _ hc) (Nat.lt_irrefl _)
  unlocked g hg := absurd (hinv.opened _ _ hg).2 (Nat.lt_irrefl _)

def WalkPost (generation : ℕ → Text) (p : ℕ) : Except String Handle → World → Prop
  | .ok lease, s => Ready generation p lease s
  | .error _, _ => True

/-- **The walk over the slots**: by induction on what is left of the pool. -/
theorem safe_acquireFrom (gids : List UInt32) (s : World) :
    SafeFor generation p (WalkPost generation p) (acquireFrom (generation p) gids) s := by
  induction gids generalizing s with
  | nil => exact safe_ret fun _ _ _ => trivial
  | cons gid gids ih =>
    refine safe_call fun t ht hinv => ⟨trivial, fun r u _ hstep _ => ?_⟩
    rcases hstep with ⟨rfl, rfl⟩ | ⟨rfl, rfl⟩
    · exact safe_ret fun _ _ _ => trivial
    · refine .bind (fun _ _ _ _ => trivial) ?_ (fun _ => .refl)
        (safe_closing (safe_trySlot (opened_fresh hinv gid)))
      intro found v _ hv
      cases found with
      | none => exact ih v
      | some lease => exact safe_ret fun w hw _ => hv.moved hw

theorem safe_acquire (s : World) :
    SafeFor generation p (GrantPost generation p) (body generation pool p .acquire) s := by
  have hwalk : SafeFor generation p (WalkPost generation p)
      (acquireRecovering pool (generation p)) s := by
    refine safe_require (fun _ => safe_ret fun _ _ _ => trivial) (fun _ => ?_)
    refine safe_quiet trivial fun t _ _ r _ _ => ?_
    exact safe_tried (fun _ _ => safe_ret fun _ _ _ => trivial) (fun _ _ => safe_acquireFrom pool t)
  refine .bind (fun _ _ _ _ => trivial) ?_ (fun _ => .refl) hwalk
  exact fun lease t _ ht => safe_ret fun u hu _ => ht.moved hu

/-- A lease that was given away, with its receipt in the slot. -/
structure Retiring (generation : ℕ → Text) (p : ℕ) (h : Handle) (s : World) : Prop where
  process : h.process = p
  lock : s.lock h.gid = some h
  lease : ⟨h, true⟩ ∈ s.leases
  given : ⟨h, false⟩ ∉ s.leases
  file : s.files h.gid = some (receiptOf generation h)

/-- The cleanup of the lease was successful. -/
structure Cleaned (generation : ℕ → Text) (p : ℕ) (h : Handle) (s : World) : Prop extends
    Retiring generation p h s where
  cleaned : .cleaned h ∈ s.log
  rules : ∀ n, ¬s.rules h.gid n

def RetirePost (generation : ℕ → Text) (p : ℕ) (h : Handle) {α : Type} :
    Except String α → World → Prop
  | .ok _, s => h.process = p ∧ s.lock h.gid = some h
  | .error _, s => h.process = p ∧ s.lock h.gid = some h ∧
      s.files h.gid = some (receiptOf generation h)

theorem Retiring.moved (hs : Retiring generation p h s) (hrely : Rely generation p s t) :
    Retiring generation p h t := by
  have hsame := hrely.slot h hs.process hs.lock
  exact ⟨hs.process, hsame.lock, (hsame.leases true).mpr hs.lease,
    fun hmem => hs.given ((hsame.leases false).mp hmem), hsame.file.trans hs.file⟩

theorem Cleaned.moved (hs : Cleaned generation p h s) (hrely : Rely generation p s t) :
    Cleaned generation p h t := by
  have hsame := hrely.slot h hs.process hs.lock
  exact ⟨hs.toRetiring.moved hrely, hrely.mem hs.cleaned,
    fun n hn => hs.rules n (hsame.rules hs.given n hn)⟩

theorem safe_fail {α : Type} {e : String} (hs : Retiring generation p h s) :
    SafeFor generation p (RetirePost generation p h : Except String α → World → Prop)
      (.ret (.error e)) s := by
  refine safe_ret fun t ht _ => ?_
  have hs' := hs.moved ht
  exact ⟨hs'.process, hs'.lock, hs'.file⟩

theorem safe_requireAbsent {α : Type} {Q : Except String α → World → Prop} {f : Unit → Prog α}
    {A : World → Prop} (hmoved : ∀ s t, A s → Rely generation p s t → A t)
    (hrecord : ∀ s found, A s → A (s.record (.inventoried h found true)))
    (hlock : ∀ s, A s → h.process = p ∧ s.lock h.gid = some h)
    (herror : ∀ e t, A t → SafeFor generation p Q (.ret (.error e)) t)
    (hok : ∀ t, A t → SafeFor generation p Q (f ()) t) (hs : A s) :
    SafeFor generation p Q (requireAbsent h >>= f) s := by
  refine safe_call fun t ht _ => ?_
  have hs' := hmoved s t hs ht
  refine ⟨hlock t hs', fun r u _ hstep _ => ?_⟩
  rcases hstep with ⟨e, rfl, rfl⟩ | ⟨found, rfl, -, rfl⟩
  · exact herror e u hs'
  · rw [decide_eq_true (hlock t hs').2]
    cases found with
    | true => exact herror _ _ (hrecord t true hs')
    | false => exact hok _ (hrecord t false hs')

theorem cleaned_of (hinv : Inv generation t) (hs : Retiring generation p h t)
    (hgone : ¬t.rules h.gid (generation p)) (hmem : .cleaned h ∈ t.log) :
    Cleaned generation p h t := by
  refine ⟨hs, hmem, fun n hn => hgone ?_⟩
  obtain ⟨u, hgid, hgeneration, hu⟩ := hinv.rules h.gid n hn
  obtain rfl := hinv.alone _ hs.lease u hgid hu
  rwa [← hs.process, hgeneration]

theorem safe_clearRetired (hs : Cleaned generation p h s) :
    SafeFor generation p (RetirePost generation p h) (do
      require (← call (.setLen h)) "probe-owner-lease-retire-failed"
      require (← call (.sync h)) "probe-owner-lease-retire-failed") s := by
  refine safe_call fun t ht hinv => ?_
  have hs₁ := hs.moved ht
  refine ⟨⟨hs₁.process, hs₁.lock, hs₁.given, ?_, hs₁.rules⟩, fun r u _ hstep _ => ?_⟩
  · intro u hgid hu
    exact ⟨hinv.alone _ hs₁.lease u hgid hu, hs₁.cleaned⟩
  rcases hstep with ⟨rfl, rfl⟩ | ⟨rfl, rfl⟩
  · exact safe_fail hs₁.toRetiring
  · have hlock : ((t.put h.gid []).record (.cleared h)).lock h.gid = some h := hs₁.lock
    have hlease : ⟨h, true⟩ ∈ ((t.put h.gid []).record (.cleared h)).leases := hs₁.lease
    refine safe_call fun v hv _ => ⟨trivial, fun r w hsync hstep _ => ?_⟩
    obtain rfl : w = v := hstep
    have hsame := hv.slot h hs₁.process hlock
    have htrue : r = true := hsync ⟨_, (hsame.leases true).mpr hlease, rfl⟩
    subst htrue
    refine safe_ret fun x hx _ => ?_
    exact ⟨hs₁.process, (hx.slot h hs₁.process hsame.lock).lock⟩

/-- **A retirement** that fails has left its receipt. -/
theorem safe_retire (hs : Retiring generation p h s) :
    SafeFor generation p (RetirePost generation p h) (retire h) s := by
  have hretiring : ∀ {s : World} {found : Bool}, Retiring generation p h s →
      Retiring generation p h (s.record (.inventoried h found true)) := fun hs => { hs with }
  refine safe_quiet trivial fun t ht _ r _ _ => ?_
  refine safe_tried (fun _ _ => safe_fail (hs.moved ht)) (fun _ _ => ?_)
  refine safe_requireAbsent (A := Retiring generation p h) (fun _ _ hu hv => hu.moved hv)
    (fun _ _ hu => hretiring hu) (fun _ hu => ⟨hu.process, hu.lock⟩)
    (fun _ _ hu => safe_fail hu) (fun u hu => ?_) (hs.moved ht)
  refine safe_call fun v hv _ => ?_
  have hv' := hu.moved hv
  refine ⟨⟨hv'.process, hv'.lock⟩, fun r w _ hstep hinv => ?_⟩
  rcases hstep with ⟨e, rfl, rules, rfl, -, -⟩ | ⟨w₁, rfl, ⟨rules, rfl, -, -⟩, hgone, rfl⟩
  · have hfailed : Retiring generation p h { v with rules } := { hv' with }
    exact safe_fail hfailed
  · have hw : Retiring generation p h
        (({ v with rules } : World).record (.cleaned h)) := { hv' with }
    have hcleaned := cleaned_of hinv hw hgone List.mem_cons_self
    refine safe_requireAbsent (A := Cleaned generation p h) (fun _ _ hx hy => hx.moved hy)
      (fun _ _ hx => ?_) (fun _ hx => ⟨hx.process, hx.lock⟩)
      (fun _ _ hx => safe_fail hx.toRetiring) (fun x hx => ?_) hcleaned
    · exact ⟨hretiring hx.toRetiring, List.mem_cons_of_mem _ hx.cleaned, hx.rules⟩
    · refine safe_quiet trivial fun y hy _ r _ _ => ?_
      have hy' := hx.moved hy
      refine safe_tried (fun _ _ => safe_fail hy'.toRetiring) (fun _ _ => ?_)
      exact safe_clearRetired hy'

def Post (generation : ℕ → Text) (p : ℕ) : Request → Except String (Option Handle) → World → Prop
  | .acquire, r, s => GrantPost generation p r s
  | .retire h, r, s => RetirePost generation p h r s
  | .drop h, _, s => h.process = p ∧ s.lock h.gid = some h

def contract (generation : ℕ → Text) : Contract ℕ Request World Call String (Option Handle) where
  inv := Inv generation
  rely := Rely generation
  guard := Guard generation
  post := Post generation

section

variable (hinv : Inv generation s)
include hinv

/-- **Every call keeps the contract.** -/
theorem kept_step {c : Call} {r : Reply c} (hguard : Guard generation p c s)
    (hstep : step generation p c s r t) :
    Inv generation t ∧ ∀ q, q ≠ p → Rely generation q s t := by
  cases c with
  | openDirectory => obtain rfl : t = s := hstep; exact ⟨hinv, fun _ _ => refl⟩
  | metadata h => obtain rfl : t = s := hstep.2; exact ⟨hinv, fun _ _ => refl⟩
  | readToString h => obtain rfl : t = s := hstep.2; exact ⟨hinv, fun _ _ => refl⟩
  | sync h => obtain rfl : t = s := hstep; exact ⟨hinv, fun _ _ => refl⟩
  | seek h => obtain rfl : t = s := hstep; exact ⟨hinv, fun _ _ => refl⟩
  | attest h => obtain rfl : t = s := hstep; exact ⟨hinv, fun _ _ => refl⟩
  | openLease gid =>
    rcases hstep with ⟨-, rfl⟩ | ⟨-, rfl⟩
    · exact ⟨hinv, fun _ _ => refl⟩
    · exact ⟨inv_openLease hinv gid, fun _ _ => rely_openLease hinv gid⟩
  | tryLock h =>
    rcases hstep with ⟨-, hfree, rfl⟩ | ⟨-, -, rfl⟩ | ⟨-, rfl⟩
    · refine ⟨inv_tryLock hinv hguard hfree, fun q hq => (only_tryLock hfree).rely ?_ ?_⟩
      · rw [hguard.process]
        exact hq.symm
      · intro u _ hu
        rw [hfree] at hu
        cases hu
    · exact ⟨hinv, fun _ _ => refl⟩
    · exact ⟨hinv, fun _ _ => refl⟩
  | inventory h =>
    obtain ⟨hp, hlock⟩ := hguard
    rcases hstep with ⟨e, -, rfl⟩ | ⟨found, -, -, rfl⟩
    · exact ⟨hinv, fun _ _ => refl⟩
    · refine ⟨hinv.record (fun _ => Iff.rfl) (fun _ _ hc => by cases hc)
        (fun _ hc => by cases hc), fun q hq => ?_⟩
      exact ((only_refl (.inr hlock)).record rfl rfl).rely_locked hlock (hp ▸ hq)
  | recover h stale =>
    obtain ⟨hp, hlock, hlease⟩ := hguard
    rcases hstep with ⟨e, -, hrules⟩ | ⟨s₁, -, hrules, hgone, rfl⟩
    · exact ⟨hinv.settle hrules, fun q hq => (only_settle hlock hrules).rely_locked hlock (hp ▸ hq)⟩
    · have honly := only_settle hlock hrules
      have hinv₁ := hinv.settle hrules
      obtain ⟨rules, rfl, -, -⟩ := hrules
      exact ⟨inv_recovered hinv₁ hlock hlease hgone,
        fun q hq => (honly.record rfl rfl).rely_locked hlock (hp ▸ hq)⟩
  | setLen h =>
    have hinv' := inv_setLen hinv hguard
    obtain ⟨hp, hlock, -⟩ := hguard
    rcases hstep with ⟨-, rfl⟩ | ⟨-, rfl⟩
    · exact ⟨hinv, fun _ _ => refl⟩
    · exact ⟨hinv', fun q hq =>
        ((only_refl (.inr hlock)).put.record rfl rfl).rely_locked hlock (hp ▸ hq)⟩
  | write h text =>
    obtain ⟨hp, hlock, hdebt⟩ := hguard
    rcases hstep with ⟨-, rfl⟩ | ⟨-, n, rfl⟩
    · exact ⟨hinv.put hdebt, fun q hq => (only_refl (.inr hlock)).put.rely_locked hlock (hp ▸ hq)⟩
    · exact ⟨hinv.put hdebt, fun q hq => (only_refl (.inr hlock)).put.rely_locked hlock (hp ▸ hq)⟩
  | cleanup h =>
    obtain ⟨hp, hlock⟩ := hguard
    rcases hstep with ⟨e, -, hrules⟩ | ⟨s₁, -, hrules, -, rfl⟩
    · exact ⟨hinv.settle hrules, fun q hq => (only_settle hlock hrules).rely_locked hlock (hp ▸ hq)⟩
    · have honly := only_settle hlock hrules
      have hinv₁ := hinv.settle hrules
      have hlog : s₁.log = s.log := by
        obtain ⟨rules, rfl, -, -⟩ := hrules
        rfl
      exact ⟨hinv₁.record (fun _ => Iff.rfl) (fun _ _ hc => by cases hc) (fun _ hc => by cases hc),
        fun q hq => (honly.record hlog rfl).rely_locked hlock (hp ▸ hq)⟩
  | close h =>
    obtain ⟨hp, hlease⟩ := hguard
    obtain rfl : t = s.close h := hstep
    exact ⟨hinv.close h, fun q hq => rely_close hinv hlease (hp ▸ hq)⟩

/-- **A death inside a call** is a failing call and a death. -/
theorem kept_torn {c : Call} (hguard : Guard generation p c s) (htorn : torn generation p c s t) :
    Inv generation t ∧ ∀ q, q ≠ p → Rely generation q s t := by
  have hthen : ∀ {r : Reply c} {u : World}, step generation p c s r u →
      Inv generation (u.dead p) ∧ ∀ q, q ≠ p → Rely generation q s (u.dead p) := by
    intro r u hstep
    obtain ⟨hinv', hrely⟩ := kept_step hinv hguard hstep
    exact ⟨hinv'.dead p, fun q hq => (hrely q hq).trans (rely_dead hq)⟩
  cases c with
  | write h text =>
    obtain ⟨n, rfl⟩ := htorn
    exact hthen (r := false) (.inr ⟨rfl, n, rfl⟩)
  | recover h stale =>
    obtain ⟨s₁, hrules, rfl⟩ := htorn
    exact hthen (r := .error "") (.inl ⟨"", rfl, hrules⟩)
  | cleanup h =>
    obtain ⟨s₁, hrules, rfl⟩ := htorn
    exact hthen (r := .error "") (.inl ⟨"", rfl, hrules⟩)
  | _ => exact absurd htorn id

/-- **A request begins**, and its program keeps its side. -/
theorem kept_start {request : Request} (hstart : start p request s t) :
    (Inv generation t ∧ ∀ q, q ≠ p → Rely generation q s t) ∧
      SafeFor generation p (Post generation p request) (body generation pool p request) t := by
  have hgive : ∀ {h : Handle}, ⟨h, false⟩ ∈ s.leases → h.process = p →
      (Inv generation (s.give h) ∧ ∀ q, q ≠ p → Rely generation q s (s.give h)) ∧
        Retiring generation p h (s.give h) := by
    intro h hlease hp
    have hlock := hinv.held _ hlease
    refine ⟨⟨hinv.give h, fun q hq => (only_give hlock).rely_locked hlock (hp ▸ hq)⟩, hp, hlock,
      mem_give.mpr (.inr ⟨rfl, _, hlease, rfl⟩), ?_, hinv.fenced h (hinv.owing h hlease)⟩
    intro hmem
    rcases mem_give.mp hmem with ⟨-, hne⟩ | ⟨heq, -⟩
    · exact hne rfl
    · cases heq
  cases request with
  | acquire =>
    obtain rfl : t = s := hstart
    exact ⟨⟨hinv, fun _ _ => refl⟩, safe_acquire t⟩
  | retire h =>
    obtain ⟨hlease, hp, rfl⟩ := hstart
    obtain ⟨hkept, hretiring⟩ := hgive hlease hp
    refine ⟨hkept, Safe.bind ?_ ?_ (fun _ => .refl) (safe_retire hretiring)⟩
    · exact fun _ _ _ hu => hu
    · intro _ u _ hu
      refine safe_ret fun v hv _ => ?_
      exact ⟨hu.1, (hv.slot h hu.1 hu.2).lock⟩
  | drop h =>
    obtain ⟨hlease, hp, rfl⟩ := hstart
    obtain ⟨hkept, hretiring⟩ := hgive hlease hp
    exact ⟨hkept, safe_ret fun u hu _ => ⟨hp, (hretiring.moved hu).lock⟩⟩

/-- **A request ends.** -/
theorem kept_finish {request : Request} {r : Except String (Option Handle)}
    (hpost : Post generation p request r s) (hfinish : finish p request r s t) :
    Inv generation t ∧ ∀ q, q ≠ p → Rely generation q s t := by
  have hclose : ∀ {h : Handle} {s : World}, Inv generation s → h.process = p →
      s.lock h.gid = some h →
      Inv generation (s.close h) ∧ ∀ q, q ≠ p → Rely generation q s (s.close h) := by
    intro h s hinv hp hlock
    exact ⟨hinv.close h, fun q hq => (only_close hlock hinv).rely_locked hlock (hp ▸ hq)⟩
  cases request with
  | acquire =>
    cases r with
    | error e =>
      obtain rfl : t = s := hfinish
      exact ⟨hinv, fun _ _ => refl⟩
    | ok found =>
      cases found with
      | none =>
        obtain rfl : t = s := hfinish
        exact ⟨hinv, fun _ _ => refl⟩
      | some h =>
        have hready : Ready generation p h s := hpost
        obtain rfl := hfinish
        refine ⟨inv_granted hinv hready.lock hready.lease hready.debt hready.file
          hready.admitted, fun q hq => ?_⟩
        exact (only_granted hready.lock).rely_locked hready.lock (hready.process ▸ hq)
  | retire h =>
    cases r with
    | ok found =>
      obtain ⟨hp, hlock⟩ := hpost
      obtain rfl := hfinish
      exact hclose hinv hp hlock
    | error e =>
      obtain ⟨hp, hlock, hfile⟩ := hpost
      obtain rfl := hfinish
      have hfailed := inv_retireFailed hinv hlock hfile
      obtain ⟨hinv', hrely⟩ := hclose hfailed hp hlock
      have honly : Only h s (s.record (.retireFailed h)) :=
        (only_refl (.inr hlock)).record rfl rfl
      exact ⟨hinv', fun q hq => (honly.rely_locked hlock (hp ▸ hq)).trans (hrely q hq)⟩
  | drop h =>
    obtain ⟨hp, hlock⟩ := hpost
    obtain rfl := hfinish
    exact hclose hinv hp hlock

end

abbrev syncing (generation : ℕ → Text) (pool : List UInt32) :
    Parties ℕ Request World Call Reply String (Option Handle) :=
  (processes generation pool).restrict SyncSucceeds

theorem contract_kept : (contract generation).Kept (syncing generation pool) where
  refl := .refl
  trans _ _ _ _ h₁ h₂ := h₁.trans h₂
  step hinv hguard hstep := kept_step hinv hguard hstep.2
  torn hinv hguard htorn := kept_torn hinv hguard htorn
  die hinv hdie := by
    obtain rfl := hdie
    exact ⟨hinv.dead _, fun q hq => rely_dead hq⟩
  world hinv hmove := kept_world hinv hmove
  start hinv hstart := kept_start hinv hstart
  finish hinv hpost hfinish := kept_finish hinv hpost hfinish

theorem inv_boot (tasks : UInt32 → ℕ) : Inv generation (World.boot tasks) where
  opened _ _ hlock := by cases hlock
  present _ _ hlock := by cases hlock
  logged _ _ hmem := by cases hmem
  fenced _ hu := absurd hu id
  held _ hl := by cases hl
  alone _ hl := by cases hl
  owing _ hl := by cases hl
  single := List.Pairwise.nil
  admitted newer h older heq := by cases newer <;> cases heq
  rules _ _ hn := absurd hn id

def World.settled (s : World) (gid : UInt32) (n : Text) : World :=
  { s with rules := fun g m => s.rules g m ∧ ¬(g = gid ∧ m = n) }

theorem settleRules_settled (s : World) (gid : UInt32) (n : Text) :
    s.SettleRules gid n (s.settled gid n) ∧ ¬(s.settled gid n).rules gid n :=
  ⟨⟨_, rfl, fun _ _ hm => hm.1, fun _ _ hm hne => ⟨hm, hne⟩⟩, fun hm => hm.2 ⟨rfl, rfl⟩⟩

/-- Calls none of which fails, except the syncs where `syncs` is false. -/
def answer (generation : ℕ → Text) (syncs : Bool) (p : ℕ) : (c : Call) → World → Reply c × World
  | .openDirectory, s => (.ok (), s)
  | .openLease gid, s =>
    (some ⟨p, s.opened, gid⟩, { s.put gid (s.contents gid) with opened := s.opened + 1 })
  | .tryLock h, s =>
    if s.lock h.gid = none then
      (.locked, { s.record (.locked h (s.contents h.gid)) with
        lock := Function.update s.lock h.gid (some h) })
    else (.wouldBlock, s)
  | .metadata h, s => (some ⟨true, (s.contents h.gid).length⟩, s)
  | .readToString h, s => (fromUtf8 (s.contents h.gid), s)
  | .inventory h, s =>
    (.ok (decide (0 < s.tasks h.gid)), s.record (.inventoried h (decide (0 < s.tasks h.gid))
      (decide (s.lock h.gid = some h))))
  | .recover h stale, s =>
    (.ok (), (s.settled h.gid stale).record (.recovered h stale (s.tasks h.gid)))
  | .setLen h, s => (true, (s.put h.gid []).record (.cleared h))
  | .sync _, s => (syncs, s)
  | .seek _, s => (true, s)
  | .write h text, s => (true, s.write h.gid (utf8 text))
  | .attest _, s => (.ok (), s)
  | .cleanup h, s => (.ok (), (s.settled h.gid (generation p)).record (.cleaned h))
  | .close h, s => ((), s.close h)

theorem answer_step (generation : ℕ → Text) (syncs : Bool) (p : ℕ) (c : Call) (s : World) :
    step generation p c s (answer generation syncs p c s).1 (answer generation syncs p c s).2 := by
  cases c with
  | openLease gid => exact .inr ⟨rfl, rfl⟩
  | tryLock h =>
    by_cases hfree : s.lock h.gid = none
    · rw [answer, if_pos hfree]
      exact .inl ⟨rfl, hfree, rfl⟩
    · rw [answer, if_neg hfree]
      exact .inr (.inl ⟨rfl, hfree, rfl⟩)
  | metadata h =>
    refine ⟨?_, rfl⟩
    intro m hm
    rw [← Option.some.inj hm]
  | readToString h => exact ⟨.inr rfl, rfl⟩
  | inventory h => exact .inr ⟨_, rfl, rfl, rfl⟩
  | recover h stale =>
    obtain ⟨hrules, hgone⟩ := settleRules_settled s h.gid stale
    exact .inr ⟨_, rfl, hrules, hgone, rfl⟩
  | setLen h => exact .inr ⟨rfl, rfl⟩
  | write h text => exact .inl ⟨rfl, rfl⟩
  | cleanup h =>
    obtain ⟨hrules, hgone⟩ := settleRules_settled s h.gid (generation p)
    exact .inr ⟨_, rfl, hrules, hgone, rfl⟩
  | _ => rfl

def begun : Request → World → World
  | .acquire, s => s
  | .retire h, s => s.give h
  | .drop h, s => s.give h

def ended : Request → Except String (Option Handle) → World → World
  | .acquire, .ok (some h), s => { s.record (.granted h) with leases := ⟨h, false⟩ :: s.leases }
  | .acquire, _, s => s
  | .retire h, .ok _, s => s.close h
  | .retire h, .error _, s => (s.record (.retireFailed h)).close h
  | .drop h, _, s => s.close h

theorem finish_ended (p : ℕ) (request : Request) (r : Except String (Option Handle)) (s : World) :
    finish p request r s (ended request r s) := by
  cases request with
  | acquire =>
    cases r with
    | error e => rfl
    | ok found => cases found <;> rfl
  | retire h => cases r <;> rfl
  | drop h => rfl

def served (generation : ℕ → Text) (pool : List UInt32) (syncs : Bool) (p : ℕ) (request : Request)
    (s : World) : World :=
  let outcome := play (answer generation syncs p) (fun _ s => s) (body generation pool p request)
    (begun request s)
  ended request outcome.1 outcome.2

theorem reaches_served {syncs : Bool} (request : Request)
    (hstart : start p request s (begun request s)) :
    Reaches (processes generation pool) ⟨s, fun _ => none⟩
      ⟨served generation pool syncs p request s, fun _ => none⟩ :=
  reaches_request (answer_step generation syncs p) hstart (finish_ended p request _ _)

theorem syncing_served (request : Request) (hstart : start p request s (begun request s)) :
    Reaches (syncing generation pool) ⟨s, fun _ => none⟩
      ⟨served generation pool true p request s, fun _ => none⟩ := by
  have hexec : ∀ c s, (syncing generation pool).step p c s (answer generation true p c s).1
      (answer generation true p c s).2 := by
    intro c s
    refine ⟨?_, answer_step generation true p c s⟩
    cases c with
    | sync h => exact fun _ => rfl
    | _ => exact trivial
  exact reaches_request hexec hstart (finish_ended p request _ _)

/-- What is promised of the slots. -/
structure SlotsSafe (generation : ℕ → Text) (s : World) : Prop where
  /-- At most one live lease exists for a group. -/
  single : s.leases.Pairwise fun l l' => l.handle.gid ≠ l'.handle.gid
  /-- Every other tenure of the slot of a live lease is settled. -/
  settled : ∀ l ∈ s.leases, ∀ t : Handle, t.gid = l.handle.gid → Unsettled generation s.log t →
    t = l.handle
  /-- The receipt of a tenure that is not settled is in the slot. -/
  fenced : ∀ t, Unsettled generation s.log t → s.files t.gid = some (receiptOf generation t)
  /-- What was granted was admitted. -/
  admitted : ∀ newer h older, s.log = newer ++ .granted h :: older → Admitted generation older h
  /-- No rules of another generation are under the group of a live lease. -/
  rules : ∀ l ∈ s.leases, ∀ n, s.rules l.handle.gid n → n = generation l.handle.process

theorem Inv.slotsSafe (hinv : Inv generation s) : SlotsSafe generation s where
  single := hinv.single
  settled := hinv.alone
  fenced := hinv.fenced
  admitted := hinv.admitted
  rules l hl n hn := by
    obtain ⟨t, hgid, hgeneration, ht⟩ := hinv.rules _ n hn
    rw [← hgeneration, hinv.alone l hl t hgid ht]

def booted (tasks : UInt32 → ℕ) : Pool ℕ Request World Call Reply String (Option Handle) :=
  ⟨.boot tasks, fun _ => none⟩

/-- **Slots are never reused over unsettled state**, in every run in which the sync of a
retirement does not fail. -/
theorem slots_never_reused (generation : ℕ → Text) (pool : List UInt32) (tasks : UInt32 → ℕ)
    {s : World} {running : ℕ → Option (Request × Prog (Option Handle))}
    (hreach : Reaches (syncing generation pool) (booted tasks) ⟨s, running⟩) :
    SlotsSafe generation s := by
  have hbooted : (contract generation).Holds (syncing generation pool) (booted tasks) :=
    ⟨inv_boot tasks, fun _ _ _ hnone => by cases hnone⟩
  have hinv : Inv generation s := (contract_kept.reaches hreach hbooted).1
  exact hinv.slotsSafe

def twoGenerations (p : ℕ) : Text := List.replicate 64 (if p = 0 then 'a' else 'b')

def firstHolds : World :=
  served twoGenerations [7] true 0 .acquire (World.boot fun _ => 0)

def secondRecovers : World := served twoGenerations [7] true 1 .acquire (firstHolds.dead 0)

theorem slots_never_reused_recovered : SlotsSafe twoGenerations secondRecovers ∧
    secondRecovers.leases = [⟨⟨1, 1, 7⟩, false⟩] := by
  have hfirst : Reaches (syncing twoGenerations [7]) (booted fun _ => 0)
      ⟨firstHolds, fun _ => none⟩ := syncing_served .acquire rfl
  have hdie : Reaches (syncing twoGenerations [7]) ⟨firstHolds, fun _ => none⟩
      ⟨firstHolds.dead 0, fun _ => none⟩ := reaches_die (p := 0) rfl
  have hsecond : Reaches (syncing twoGenerations [7]) ⟨firstHolds.dead 0, fun _ => none⟩
      ⟨secondRecovers, fun _ => none⟩ := syncing_served .acquire rfl
  refine ⟨?_, by decide +kernel⟩
  exact slots_never_reused twoGenerations [7] (fun _ => 0) ((hfirst.trans hdie).trans hsecond)

def retireFails : World := served twoGenerations [7] false 0 (.retire ⟨0, 0, 7⟩) firstHolds

def secondReuses : World := served twoGenerations [7] true 1 .acquire retireFails

/-- **A retirement that fails at its sync has opened its slot**: the next attempt finds it empty. -/
theorem failed_retire_reopens :
    Reaches (processes twoGenerations [7]) (booted fun _ => 0) ⟨secondReuses, fun _ => none⟩ ∧
      secondReuses.leases = [⟨⟨1, 1, 7⟩, false⟩] ∧
        .retireFailed ⟨0, 0, 7⟩ ∈ secondReuses.log ∧ ¬SlotsSafe twoGenerations secondReuses := by
  have hleases : secondReuses.leases = [⟨⟨1, 1, 7⟩, false⟩] := by decide +kernel
  have hlog : secondReuses.log = [.granted ⟨1, 1, 7⟩, .inventoried ⟨1, 1, 7⟩ false true,
      .locked ⟨1, 1, 7⟩ [], .retireFailed ⟨0, 0, 7⟩, .cleared ⟨0, 0, 7⟩,
      .inventoried ⟨0, 0, 7⟩ false true, .cleaned ⟨0, 0, 7⟩, .inventoried ⟨0, 0, 7⟩ false true,
      .granted ⟨0, 0, 7⟩, .inventoried ⟨0, 0, 7⟩ false true, .locked ⟨0, 0, 7⟩ []] := by
    decide +kernel
  have hlease : ⟨⟨0, 0, 7⟩, false⟩ ∈ firstHolds.leases := by decide +kernel
  have hfirst : Reaches (processes twoGenerations [7]) (booted fun _ => 0)
      ⟨firstHolds, fun _ => none⟩ := reaches_served .acquire rfl
  have hretire : Reaches (processes twoGenerations [7]) ⟨firstHolds, fun _ => none⟩
      ⟨retireFails, fun _ => none⟩ := reaches_served (.retire ⟨0, 0, 7⟩) ⟨hlease, rfl, rfl⟩
  have hsecond : Reaches (processes twoGenerations [7]) ⟨retireFails, fun _ => none⟩
      ⟨secondReuses, fun _ => none⟩ := reaches_served .acquire rfl
  refine ⟨(hfirst.trans hretire).trans hsecond, hleases, ?_, fun hsafe => ?_⟩
  · rw [hlog]
    decide
  · have hunsettled : Unsettled twoGenerations secondReuses.log ⟨0, 0, 7⟩ := by
      rw [hlog]
      exact .inr (.inl rfl)
    have hmem : ⟨⟨1, 1, 7⟩, false⟩ ∈ secondReuses.leases := by
      rw [hleases]
      exact List.mem_singleton.mpr rfl
    have := hsafe.settled _ hmem ⟨0, 0, 7⟩ rfl hunsettled
    exact absurd this (by decide)

end CakeAutorate.ProbeOwner
