/-
# Recovery among other writers

The preflight of a rollback decides which swaps go back: those of the packages
whose public file is this transaction's candidate.  Every other package has its
last commit at the public name already.  So a rollback that retires the
directory has every commit public, and one that ends in an error leaves the
directory with what it holds.  Recovery is assembled from this.
-/

import CakeAutorate.UciTransaction.KeepingRollback

namespace CakeAutorate.UciTransaction

open Syscall Syscall.Program Journal

variable {h : Host} {c : PreparedConfig h} {a : Package → Inode} {w : Work} {s : Shared}
  {K : Package → Prop} {i : Package}

section

variable (c : PreparedConfig h) (w : Work) (i : Package) (restore : Option Version)

/-- What is to be done with package `i`: nothing, its last commit is public, or
its readable swap is to be put back. -/
def Planned (s : Shared) : Prop :=
  restore = none ∧ AtPublic i s ∨
    ∃ g, restore = some (Version.ofFile h g) ∧ c.changed i = true ∧ w (.swap i) = some g ∧
      Readable h false maxConfig g

theorem stable_planned : (careful h).Stable (Planned c w i restore) := by
  rintro s s' he (⟨hnone, hp⟩ | hres)
  · exact .inl ⟨hnone, stable_atPublic h i s s' he hp⟩
  · exact .inr hres

end

def SwapsReadable (h : Host) (w : Work) : Prop :=
  ∀ i g, w (.swap i) = some g → Readable h false maxConfig g

theorem Ready.candidate (hr : Ready c a w s) (hsw : SwapsReadable h w) (i : Package) :
    AtPublic i s ∨ c.changed i = true ∧ (a i).SameFile (s.disk.packages i) := by
  rcases hr.held i with hp | hh
  · exact .inl hp
  · obtain ⟨g, hg, -, hcase⟩ := hh.swap
    exact .inr ⟨hh.changed, hcase.resolve_right (not_not_intro (hsw i g hg))⟩

theorem wp_seesCandidate_bind {β : Type} {f : Bool → Prog β} {Q : Except String β → Shared → Prop}
    {A : Shared → Prop} (hA : (careful h).Stable A) (hAg : ∀ s, A s → Going c a w K s)
    (hsw : SwapsReadable h w) (herr : ∀ e s', A s' → Q (.error e) s')
    (htrue : ∀ s', A s' → wp (careful h) Q Stored (f true) s')
    (hfalse : ∀ s', A s' → AtPublic i s' → wp (careful h) Q Stored (f false) s') (hs : A s) :
    wp (careful h) Q Stored (publicMatches h i ((c.journal a).after i) true >>= f) s := by
  have hI : ∀ s, A s → Stored s := fun s hs => (hAg s hs).safe.stored
  have hcand := (hAg s hs).1.2.candidate hsw i
  refine wp_publicMatches_bind hA hI (hAg s hs).1.2.root ?_ (fun e s' hs' _ => herr e s' hs')
    (fun b s' hs' hb => ?_) hs
  · refine hcand.imp id fun hp => ?_
    exact Inode.SameFile.readable hp.2 ((hAg s hs).1.2.recorded.staged.readable i)
  · cases b with
    | true => exact htrue s' hs'
    | false =>
      refine hfalse s' hs' ?_
      rcases hb with hp | ⟨heq, hb⟩
      · exact hp
      · refine ((hAg s' hs').1.2.candidate hsw i).resolve_right fun hp => ?_
        have : ((c.journal a).after i).matchesFile h (s'.disk.packages i) true = true :=
          matchesFile_of_sameFile hp.2
        rw [heq, ← hb] at this
        cases this

section Plan

variable {β : Type} {Q : Except String β → Shared → Prop} {A : Shared → Prop}

section

variable (hA : (careful h).Stable A) (hAg : ∀ s, A s → Going c a w K s)
include hA hAg

/-- The version that `swap_to_restore` names is that of the swap. -/
theorem wp_swapToRestore_bind {f : Version × Bool → Prog β} (hc : c.changed i = true)
    (herr : ∀ e s', A s' → Q (.error e) s')
    (hok : ∀ v foreign s', A s' → Planned c w i (some v) s' →
      wp (careful h) Q Stored (f (v, foreign)) s')
    (hs : A s) : wp (careful h) Q Stored ((c.journal a).swapToRestore h i >>= f) s := by
  refine wp_private_bind (readsAt_swapToRestore _ fun _ => trivial) hA
    (fun s hs => (hAg s hs).safe.stored) herr (fun r s' hr hs' => ?_) hs
  obtain ⟨v, foreign⟩ := r
  obtain ⟨g, hg, hread, rfl⟩ := swapToRestore_inv (hAg s hs).1.2.pending hr
  exact hok _ _ s' hs' (.inr ⟨g, rfl, hc, hg, hread⟩)

/-- The preflight of `rollback_with_status` for one package. -/
theorem wp_preflight_bind {f : Option Version × Bool → Prog β} (hsw : SwapsReadable h w)
    (herr : ∀ e s', A s' → Q (.error e) s')
    (hok : ∀ restore foreign s', A s' → Planned c w i restore s' →
      wp (careful h) Q Stored (f (restore, foreign)) s')
    (hs : A s) : wp (careful h) Q Stored ((c.journal a).preflight h i >>= f) s := by
  have hI : ∀ s, A s → Stored s := fun s hs => (hAg s hs).safe.stored
  have hthrow : ∀ {e : String} {s : Shared}, A s → wp (careful h) Q Stored (.ret (.error e)) s :=
    fun hs => wp_ret_stable hA hI (fun s hs => herr _ s hs) hs
  unfold preflight
  cases hc : c.changed i with
  | false =>
    have hj : (c.journal a).changed i = false := hc
    simp only [hj, Bool.not_false, if_true, bind_bind]
    refine wp_keep_bind (readsOnly_publicMatches _ _ _) hA hI herr (fun b s' hs' => ?_) hs
    cases b with
    | false => exact hthrow hs'
    | true =>
      refine hok none false s' hs' (.inl ⟨rfl, ?_⟩)
      rcases (hAg s' hs').1.2.held i with hp | hh
      · exact hp
      · rw [hh.changed] at hc
        cases hc
  | true =>
    have hj : (c.journal a).changed i = true := hc
    simp only [hj, Bool.not_true, Bool.false_eq_true, if_false, bind_bind]
    refine wp_seesCandidate_bind hA hAg hsw herr (fun s' hs' => ?_) (fun s' hs' hp' => ?_) hs
    · simp only [if_true, bind_bind]
      exact wp_swapToRestore_bind hA hAg hc herr (fun v foreign => hok (some v) foreign) hs'
    · have hAp : (careful h).Stable fun s => A s ∧ AtPublic i s := hA.and (stable_atPublic h i)
      simp only [Bool.false_eq_true, if_false, bind_bind]
      refine wp_keep_bind (readsOnly_publicMatches _ _ _) hAp (fun s hs => hI s hs.1)
        (fun e s hs => herr e s hs.1) (fun b s₂ hs₂ => ?_) ⟨hs', hp'⟩
      cases b with
      | false => exact hthrow hs₂.1
      | true =>
        simp only [Bool.not_true, Bool.false_eq_true, if_false, bind_bind]
        refine wp_keep_bind (readsAt_readSwap trivial) hAp (fun s hs => hI s hs.1)
          (fun e s hs => herr e s hs.1) (fun file s₃ hs₃ => ?_) hs₂
        cases hm : ((c.journal a).after i).matchesFile h file true with
        | false => exact hthrow hs₃.1
        | true => exact hok none false s₃ hs₃.1 (.inl ⟨rfl, hs₃.2⟩)

/-- The choice of `rollback_keeping_later` for one package. -/
theorem wp_keepOrRestore_bind {f : Option Version → Prog β} (hsw : SwapsReadable h w)
    (herr : ∀ e s', A s' → Q (.error e) s')
    (hok : ∀ restore s', A s' → Planned c w i restore s' → wp (careful h) Q Stored (f restore) s')
    (hs : A s) : wp (careful h) Q Stored ((c.journal a).keepOrRestore h i >>= f) s := by
  unfold keepOrRestore
  cases hc : c.changed i with
  | false =>
    have hj : (c.journal a).changed i = false := hc
    simp only [hj, Bool.not_false, if_true]
    refine hok none s hs (.inl ⟨rfl, ?_⟩)
    rcases (hAg s hs).1.2.held i with hp | hh
    · exact hp
    · rw [hh.changed] at hc
      cases hc
  | true =>
    have hj : (c.journal a).changed i = true := hc
    simp only [hj, Bool.not_true, Bool.false_eq_true, if_false, bind_bind]
    refine wp_seesCandidate_bind hA hAg hsw herr (fun s' hs' => ?_) (fun s' hs' hp' => ?_) hs
    · simp only [Bool.not_true, Bool.false_eq_true, if_false, bind_bind]
      exact wp_swapToRestore_bind hA hAg hc herr (fun v foreign => hok (some v)) hs'
    · exact hok none s' hs' (.inl ⟨rfl, hp'⟩)

end

end Plan

section Rollback

variable {β : Type} {Q : Except String β → Shared → Prop} {f : Unit → Prog β}

variable {restore : Package → Option Version} {checkpoint : Package → Prog Unit}

theorem wp_keepingMember (hcp : ReadsOnly (checkpoint i)) (hK : ¬K i)
    (hplan : Planned c w i (restore i) s) (herr : ∀ e s', Safe h s' → Q (.error e) s')
    (hk : ∀ w' s', Going c a w' (fun k => K k ∨ k = i) s' →
      (∀ k, k ≠ i → w' (.swap k) = w (.swap k)) → wp (careful h) Q Stored (f ()) s')
    (hs : Going c a w K s) :
    wp (careful h) Q Stored ((c.journal a).restoreMember h restore checkpoint i >>= f) s := by
  have hjoin : ∀ {w' : Work} {s' : Shared}, Going c a w' K s' → AtPublic i s' →
      Going c a w' (fun k => K k ∨ k = i) s' := by
    intro w' s' hs' hp
    refine ⟨hs'.1, ?_⟩
    rintro k (hk | rfl)
    · exact hs'.2 k hk
    · exact hp
  rcases hplan with ⟨hnone, hp⟩ | ⟨g, hres, hc, hg, hread⟩
  · unfold restoreMember
    simp only [hnone, pure_eq, ret_ok_bind]
    exact hk w s (hjoin hs hp) fun _ _ => rfl
  · exact wp_keepingRestoreMember hcp hK hres hc hg hread herr
      (fun w' s' hs' hp hrest => hk w' s' (hjoin hs' hp) hrest) hs

/-- `Journal::restore_swaps`, of a plan: an error with everything safe, or every
last commit is public. -/
theorem wp_keepingRestoreSwaps (hcp : ∀ i, ReadsOnly (checkpoint i))
    (hplan : ∀ i, Planned c w i (restore i) s) (herr : ∀ e s', Safe h s' → Q (.error e) s')
    (hk : ∀ s', Retirable h s' → wp (careful h) Q Stored (f ()) s') (hn : Numbered s)
    (hr : Ready c a w s) :
    wp (careful h) Q Stored ((c.journal a).restoreSwaps h restore checkpoint >>= f) s := by
  -- the first package keeps its plan while the second is put back
  set J : Package → Prop := fun k => k = .cakeAutorate ∧ restore k = none with hJ
  have hgo : Going c a w J s := by
    refine ⟨⟨hn, hr⟩, ?_⟩
    rintro k ⟨rfl, hnone⟩
    rcases hplan .cakeAutorate with ⟨-, hp⟩ | ⟨g, hres, -⟩
    · exact hp
    · rw [hnone] at hres
      cases hres
  unfold restoreSwaps
  simp only [bind_bind]
  refine wp_keepingMember (hcp _) (by simp [hJ]) (hplan .sqm) herr (fun w₁ s₁ hs₁ hrest => ?_) hgo
  have hplan₁ : Planned c w₁ .cakeAutorate (restore .cakeAutorate) s₁ := by
    rcases hplan .cakeAutorate with ⟨hnone, -⟩ | ⟨g, hres, hc, hg, hread⟩
    · exact .inl ⟨hnone, hs₁.2 _ (.inl ⟨rfl, hnone⟩)⟩
    · exact .inr ⟨g, hres, hc, by rw [hrest _ (by simp)]; exact hg, hread⟩
  have hgo₁ : Going c a w₁ (· = .sqm) s₁ := ⟨hs₁.1, fun k hk => hs₁.2 k (.inr hk)⟩
  refine wp_keepingMember (hcp _) (by simp) hplan₁ herr (fun w₂ s₂ hs₂ _ => ?_) hgo₁
  refine hk s₂ ⟨hs₂.safe, ?_⟩
  rintro (_ | _)
  · exact hs₂.2 _ (.inr rfl)
  · exact hs₂.2 _ (.inl rfl)

theorem wp_keepingRetire {p : Prog Unit} (hp : ReadsOnly p)
    (herr : ∀ e s', Safe h s' → Q (.error e) s')
    (hk : ∀ s', Safe h s' → wp (careful h) Q Stored (f ()) s') (hs : Retirable h s) :
    wp (careful h) Q Stored (p >>= fun _ => Root.retire h >>= f) s := by
  refine wp_keep_bind hp stable_retirable (fun s hs => hs.1.stored) (fun e s hs => herr e s hs.1)
    (fun _ s₁ hs₁ => ?_) hs
  refine wp_bind (wp_post ?_ (wp_retiring retiring_retire hs₁))
  rintro (e | _) s₂ hs₂
  · exact herr e s₂ hs₂.1
  · exact hk s₂ hs₂.1

theorem wp_keepingInspect {f : List Entry → Prog β} {A : Shared → Prop} (hA : (careful h).Stable A)
    (hAw : ∀ s, A s → s.disk.pending = some w) (hI : ∀ s, A s → Stored s)
    (herr : ∀ e s', A s' → Q (.error e) s')
    (hok : ∀ names s', SwapsReadable h w → A s' → wp (careful h) Q Stored (f names) s') (hs : A s) :
    wp (careful h) Q Stored (Root.inspect h .pending >>= f) s :=
  wp_private_bind (readsAt_inspect fun _ => trivial) hA hI herr
    (fun names s' hn hs' => hok names s' (fun i _ hg => inspect_inv (hAw s hs) hn i hg) hs') hs

/-- `Journal::rollback_with_status` among other writers. -/
theorem wp_keepingRollbackWithStatus {f : Bool → Prog β}
    {checkpoint : Option Package → Bool → Prog Unit}
    (hcp : ∀ i foreign, ReadsOnly (checkpoint i foreign))
    (herr : ∀ e s', Safe h s' → Q (.error e) s')
    (hk : ∀ foreign s', Safe h s' → wp (careful h) Q Stored (f foreign) s')
    (hn : Numbered s) (hr : Ready c a w s) :
    wp (careful h) Q Stored ((c.journal a).rollbackWithStatus h checkpoint >>= f) s := by
  set A : Shared → Prop := Going c a w (fun _ => False) with hAdef
  have hA : (careful h).Stable A := stable_going
  have hI : ∀ s, A s → Stored s := fun _ hs => hs.safe.stored
  have hAe : ∀ e s', A s' → Q (.error e) s' := fun e s' hs' => herr e s' hs'.safe
  have hs : A s := ⟨⟨hn, hr⟩, fun _ hk => hk.elim⟩
  unfold rollbackWithStatus
  simp only [bind_bind]
  refine wp_keep_bind readsOnly_lockSources hA hI hAe (fun _ s₁ hs₁ => ?_) hs
  refine wp_keepingInspect hA (fun s hs => hs.1.2.pending) hI hAe (fun _ s₂ hsw hs₂ => ?_) hs₁
  refine wp_preflight_bind hA (fun _ hs => hs) hsw hAe (fun first foreign₀ s₃ hs₃ hp₃ => ?_) hs₂
  refine wp_preflight_bind (hA.and (stable_planned c w .cakeAutorate first)) (fun _ hs => hs.1) hsw
    (fun e s hs => hAe e s hs.1)
    (fun second foreign₁ s₄ hs₄ hp₄ => ?_) ⟨hs₃, hp₃⟩
  refine wp_keepingRestoreSwaps (fun i => hcp _ _) ?_ herr (fun s₅ hs₅ => ?_) hs₄.1.1.1 hs₄.1.1.2
  · rintro (_ | _)
    · exact hs₄.2
    · exact hp₄
  · simp only [pure_eq, ret_ok_bind]
    exact wp_keepingRetire (hcp _ _) herr (fun s' hs' => hk _ s' hs') hs₅

/-- `Journal::rollback_keeping_later` among other writers. -/
theorem wp_keepingRollbackKeepingLater {f : (Package → Version) → Prog β}
    {checkpoint : Option Package → (Package → Version) → Prog Unit}
    (hcp : ∀ i receipt, ReadsOnly (checkpoint i receipt))
    (herr : ∀ e s', Safe h s' → Q (.error e) s')
    (hk : ∀ receipt s', Safe h s' → wp (careful h) Q Stored (f receipt) s')
    (hn : Numbered s) (hr : Ready c a w s) :
    wp (careful h) Q Stored ((c.journal a).rollbackKeepingLater h checkpoint >>= f) s := by
  set A : Shared → Prop := Going c a w (fun _ => False) with hAdef
  have hA : (careful h).Stable A := stable_going
  have hI : ∀ s, A s → Stored s := fun _ hs => hs.safe.stored
  have hAe : ∀ e s', A s' → Q (.error e) s' := fun e s' hs' => herr e s' hs'.safe
  have hs : A s := ⟨⟨hn, hr⟩, fun _ hk => hk.elim⟩
  unfold rollbackKeepingLater
  simp only [bind_bind]
  refine wp_keep_bind readsOnly_lockSources hA hI hAe (fun _ s₁ hs₁ => ?_) hs
  refine wp_keepingInspect hA (fun s hs => hs.1.2.pending) hI hAe (fun _ s₂ hsw hs₂ => ?_) hs₁
  refine wp_keep_bind (readsOnly_publicVersion _) hA hI hAe (fun public₀ s₃ hs₃ => ?_) hs₂
  refine wp_keep_bind (readsOnly_publicVersion _) hA hI hAe (fun public₁ s₄ hs₄ => ?_) hs₃
  refine wp_keepOrRestore_bind hA (fun _ hs => hs) hsw hAe (fun first s₅ hs₅ hp₅ => ?_) hs₄
  refine wp_keepOrRestore_bind (hA.and (stable_planned c w .cakeAutorate first)) (fun _ hs => hs.1)
    hsw (fun e s hs => hAe e s hs.1)
    (fun second s₆ hs₆ hp₆ => ?_) ⟨hs₅, hp₅⟩
  refine wp_keepingRestoreSwaps (fun i => hcp _ _) ?_ herr (fun s₇ hs₇ => ?_) hs₆.1.1.1 hs₆.1.1.2
  · rintro (_ | _)
    · exact hs₆.2
    · exact hp₆
  · simp only [pure_eq, ret_ok_bind]
    exact wp_keepingRetire (hcp _ _) herr (fun s' hs' => hk _ s' hs') hs₇

end Rollback

def AtRest (c : PreparedConfig h) (a : Package → Inode) (w : Work) (s : Shared) : Prop :=
  Numbered s ∧ Ready c a w s

theorem stable_atRest : (careful h).Stable (AtRest c a w) := stable_numbered.and stable_ready

theorem AtRest.safe (hs : AtRest c a w s) : Safe h s := .ready a w hs.1 hs.2

variable {α : Type} {p : Prog α}

theorem wp_atRest_bind {β : Type} {f : α → Prog β} (hp : ReadsOnly p)
    (hk : ∀ r s', AtRest c a w s' → EndsSafe h (f r) s')
    (hs : AtRest c a w s) : EndsSafe h (p >>= f) s :=
  wp_keep_bind hp stable_atRest (fun _ hs => hs.safe.stored) (fun _ _ hs => hs.safe) hk hs

theorem wp_safe_bind {β : Type} {f : α → Prog β} (hp : ReadsOnly p)
    (hk : ∀ r s', Safe h s' → EndsSafe h (f r) s')
    (hs : Safe h s) : EndsSafe h (p >>= f) s :=
  wp_keep_bind hp stable_safe (fun _ hs => hs.stored) (fun _ _ hs => hs) hk hs

theorem wp_safe_ret {r : Except String α} (hs : Safe h s) :
    EndsSafe h (.ret r) s :=
  wp_ret_stable stable_safe (fun _ hs => hs.stored) (fun _ hs => hs) hs

theorem wp_safe_reads (hp : ReadsOnly p) (hs : Safe h s) :
    EndsSafe h p s :=
  hp.wp_keep (careful_reads h _) stable_safe (fun _ hs => hs.stored) hs

theorem readsOnly_attestAround (versions : Package → Version) (r : Except String Unit)
    {f : Unit → Prog α} (hf : ∀ u, ReadsOnly (f u)) :
    ReadsOnly (attestReceipt h versions >>= fun _ => lift r >>= fun _ =>
      attestReceipt h versions >>= f) :=
  (readsOnly_attestReceipt _).bind fun _ => (readsAt_lift _).bind fun _ =>
    (readsOnly_attestReceipt _).bind hf

variable (check : RecoveryCheck → Except String Unit)

theorem wp_keepingRecoverKeep (hs : AtRest c a w s) :
    EndsSafe h (recoverKeep h (c.journal a) check) s := by
  refine wp_atRest_bind (readsOnly_recoveryViewsKeepingLater _) (fun views s₁ hs₁ => ?_) hs
  refine wp_atRest_bind (readsAt_lift _) (fun _ s₂ hs₂ => ?_) hs₁
  refine wp_keepingRollbackKeepingLater ?_ (fun _ _ hs => hs) (fun receipt s₃ hs₃ => ?_) hs₂.1 hs₂.2
  · rintro (_ | i) receipt
    · exact (readsAt_lift _).bind fun _ => (readsOnly_attestReceipt _).bind fun _ =>
        (readsAt_lift _).bind fun _ => readsOnly_attestReceipt _
    · exact readsAt_lift _
  · exact wp_safe_reads (readsOnly_attestAround _ _ fun _ => trivial) hs₃

theorem wp_keepingRecoverRefuse (hs : AtRest c a w s) :
    EndsSafe h (recoverRefuse h (c.journal a) check) s := by
  refine wp_atRest_bind (readsOnly_recoveryViews _) (fun views s₁ hs₁ => ?_) hs
  refine wp_atRest_bind (readsAt_lift _) (fun _ s₂ hs₂ => ?_) hs₁
  refine wp_keepingRollbackWithStatus ?_ (fun _ _ hs => hs) (fun foreign s₃ hs₃ => ?_) hs₂.1 hs₂.2
  · rintro (_ | i) foreign
    · refine (readsAt_lift _).bind fun _ => ?_
      cases foreign with
      | true => trivial
      | false =>
        exact (readsOnly_attestReceipt _).bind fun _ => (readsAt_lift _).bind fun _ =>
          readsOnly_attestReceipt _
    · exact readsAt_lift _
  · cases foreign with
    | true => exact wp_safe_ret hs₃
    | false => exact wp_safe_reads (readsOnly_attestAround _ _ fun _ => trivial) hs₃

theorem wp_keepingRecoverLater (later : LaterCommits)
    (check : RecoveryCheck → Except String Unit) (hs : AtRest c a w s) :
    EndsSafe h (match later with
        | .keep => recoverKeep h (c.journal a) check
        | .refuse => recoverRefuse h (c.journal a) check) s := by
  cases later with
  | keep => exact wp_keepingRecoverKeep check hs
  | refuse => exact wp_keepingRecoverRefuse check hs

variable (expected : Option (Package → Version))

theorem wp_keepingRecoverReady (later : LaterCommits) (check : RecoveryCheck → Except String Unit)
    (hs : AtRest c a w s) :
    EndsSafe h (recoverReady h expected later check) s := by
  refine wp_private_bind (readsAt_load fun _ => trivial) stable_atRest
    (fun _ hs => hs.safe.stored) (fun _ _ hs => hs.safe) (fun j s₁ hj hs₁ => ?_) hs
  obtain rfl := load_inv hs.2.pending hs.2.recorded hj
  cases expected with
  | none => exact wp_keepingRecoverLater later check hs₁
  | some versions =>
    exact wp_atRest_bind (readsAt_ensure _ _)
      (fun _ s₂ hs₂ => wp_keepingRecoverLater later check hs₂) hs₁

/-- Every commit is public, and the directory is `w`. -/
def Settled (h : Host) (w : Work) (s : Shared) : Prop :=
  Retirable h s ∧ s.disk.pending = some w

theorem stable_settled : (careful h).Stable (Settled h w) := by
  refine stable_retirable.and ?_
  rintro s s' ⟨i, f, -, rfl⟩ hw
  exact hw

theorem Safe.rmdir {r : Reply (.rmdir .pending)} {s' : Shared} (hs : Safe h s)
    (hstep : (careful h).step (.rmdir .pending) s r s') : Safe h s' := by
  have hd : (exec h (.rmdir .pending) s.disk).2 = s'.disk := by rw [hstep.2.1]
  have hl : s'.last = s.last := hstep.2.2
  have hsame : s.disk = s'.disk → Safe h s' := fun hdone => by
    rw [Shared.ext' hdone.symm hl]
    exact hs
  simp only [exec] at hd
  split at hd
  swap
  · exact hsame hd
  rename_i w hw
  split at hd
  swap
  · exact hsame hd
  rename_i hempty
  cases hs with
  | ready a w' hn hr =>
    obtain ⟨f, hf, -⟩ := hr.recorded.intent
    have hww : s.disk.work .pending = some w' := hr.pending
    rw [hw] at hww
    cases hww
    rw [names_eq_nil.1 hempty .intent] at hf
    cases hf
  | settled hn hp hw' =>
    have hpend : s'.disk.pending = none := by rw [← hd]; rfl
    refine .settled ⟨?_, ?_, ?_⟩ ?_ ?_
    · rw [hl, ← hd]; exact hn.last
    · rw [← hd]; exact hn.packages
    · intro w'' i g hw''
      rw [hpend] at hw''
      cases hw''
    · intro i f hf
      rw [hl] at hf
      rw [← hd]
      exact hp i f hf
    · intro w'' hw''
      rw [hpend] at hw''
      cases hw''

theorem wp_keepingRetireNone {check : Except String Unit} {r : Except String α} (hs : Retirable h s) :
    EndsSafe h (lift check >>= fun _ => Root.retire h >>= fun _ => .ret r) s :=
  wp_keepingRetire (readsAt_lift _) (fun _ _ hs => hs) (fun _ hs' => wp_safe_ret hs') hs

/-- `recover_checked_with`, once a `pending` directory is found. -/
theorem wp_keepingRecoverPending (later : LaterCommits) (check : RecoveryCheck → Except String Unit)
    (hs : Safe h s) (hw : s.disk.pending = some w) :
    EndsSafe h (recoverPending h expected later check) s := by
  have hrmdir : ∀ {s : Shared}, Safe h s → EndsSafe h (do
      lift (check (.absent 1))
      ensure (← sys (Call.rmdir .pending)) "uci-transaction-io"
      sync .root
      return (none : Option (Package → Version))) s := by
    intro s hs
    refine wp_safe_bind (readsAt_lift _) (fun _ s₁ hs₁ => ?_) hs
    refine wp_sys_bind stable_safe (fun _ hs => hs.stored) (fun _ _ _ ht => False.elim ht.1)
      (fun s₂ r s₃ hs₂ hstep => ?_) hs₁
    refine wp_safe_bind (readsAt_ensure _ _) (fun _ s₄ hs₄ => ?_) (hs₂.rmdir hstep)
    exact wp_safe_bind (readsAt_sync _) (fun _ s₅ hs₅ => wp_safe_ret hs₅) hs₄
  have hthere : ∀ {e : Entry} {s : Shared}, s.disk.pending = some w →
      Sees h (.ok (w e).isSome) (existsEntry .pending e) s.disk := by
    intro e s hw
    have hsee : Sees h (.ok (s.disk.lookup (.entry .pending e)).isSome) (existsEntry .pending e)
        s.disk := sees_existsEntry (by simp [Disk.hasDir, Disk.work, hw])
    have hl : s.disk.lookup (.entry .pending e) = w e := by
      simp [Disk.lookup, Disk.work, hw]
    rw [hl] at hsee
    exact hsee
  cases hs with
  | ready a w' hn hr =>
    have hww := hr.pending
    rw [hw] at hww
    cases hww
    refine wp_atRest_bind (readsAt_openDir _) (fun _ s₁ hs₁ => ?_) ⟨hn, hr⟩
    refine wp_atRest_bind (readsOnly_inspect _) (fun names s₂ hs₂ => ?_) hs₁
    split
    · exact hrmdir hs₂.safe
    refine wp_atRest_bind (readsOnly_regular _ _ _) (fun owner s₃ hs₃ => ?_) hs₂
    refine wp_atRest_bind (readsAt_ensure _ _) (fun _ s₄ hs₄ => ?_) hs₃
    refine wp_sees_bind (readsAt_existsEntry trivial) (hthere hs₄.2.pending) stable_atRest
      (fun _ hs => hs.safe.stored) (fun s₅ hs₅ => ?_) hs₄
    simp only [hr.marker, Option.isSome_none, Bool.false_eq_true, if_false]
    refine wp_sees_bind (readsAt_existsEntry trivial) (hthere hs₅.2.pending) stable_atRest
      (fun _ hs => hs.safe.stored) (fun s₆ hs₆ => ?_) hs₅
    obtain ⟨f, hf, -⟩ := hr.recorded.ready
    simp only [hf, Option.isSome_some, Bool.not_true, Bool.false_eq_true, if_false]
    exact wp_keepingRecoverReady expected later check hs₆
  | settled hn hp hready =>
    have hA : Settled h w s := ⟨⟨.settled hn hp hready, hp⟩, hw⟩
    have hkeep : ∀ {α β : Type} {p : Prog α} {f : α → Prog β} {s : Shared}, ReadsOnly p →
        (∀ r s', Settled h w s' → EndsSafe h (f r) s') →
        Settled h w s → EndsSafe h (p >>= f) s :=
      fun hp hk hs => wp_keep_bind hp stable_settled (fun _ hs => hs.1.1.stored)
        (fun _ _ hs => hs.1.1) hk hs
    refine hkeep (readsAt_openDir _) (fun _ s₁ hs₁ => ?_) hA
    refine hkeep (readsOnly_inspect _) (fun names s₂ hs₂ => ?_) hs₁
    split
    · exact hrmdir hs₂.1.1
    refine hkeep (readsOnly_regular _ _ _) (fun owner s₃ hs₃ => ?_) hs₂
    refine hkeep (readsAt_ensure _ _) (fun _ s₄ hs₄ => ?_) hs₃
    refine wp_sees_bind (readsAt_existsEntry trivial) (hthere hs₄.2) stable_settled
      (fun _ hs => hs.1.1.stored) (fun s₅ hs₅ => ?_) hs₄
    cases hacc : (w .accepted).isSome with
    | true => exact wp_keepingRetireNone hs₅.1
    | false =>
      have hno : w .ready = none := by
        refine (hready w hw).2.resolve_right fun h => ?_
        rw [hacc] at h
        cases h
      refine wp_sees_bind (readsAt_existsEntry trivial) (hthere hs₅.2) stable_settled
        (fun _ hs => hs.1.1.stored) (fun s₆ hs₆ => ?_) hs₅
      simp only [hno, Option.isSome_none, Bool.not_false, if_true]
      refine hkeep (readsAt_existsEntry trivial) (fun displaced s₇ hs₇ => ?_) hs₆
      refine hkeep (readsAt_existsEntry trivial) (fun displacedTmp s₈ hs₈ => ?_) hs₇
      split
      · exact wp_safe_ret hs₈.1.1
      split
      · refine hkeep readsOnly_originalsPublic (fun _ s₉ hs₉ => ?_) hs₈
        exact wp_keepingRetireNone hs₉.1
      · exact wp_keepingRetireNone hs₈.1

/-- Whether there is a `pending` directory. -/
theorem wp_findPending_bind {f : Bool → Prog α}
    (hno : ∀ s', Safe h s' → EndsSafe h (f false) s')
    (hyes : ∀ w s', Safe h s' → s'.disk.pending = some w →
      EndsSafe h (f true) s') (hs : Safe h s) :
    EndsSafe h (existsDir .root (.work .pending) >>= f) s := by
  have hA : (careful h).Stable fun s' => Safe h s' ∧ s'.disk.pending = s.disk.pending := by
    refine stable_safe.and ?_
    rintro s₁ s₂ ⟨i, g, -, rfl⟩ hw
    exact hw
  refine wp_private_bind (readsAt_existsDir _ _) hA (fun _ hs => hs.1.stored) (fun _ _ hs => hs.1)
    (fun there s₁ hthere hs₁ => ?_) ⟨hs, rfl⟩
  obtain ⟨_, -, hsys⟩ := hthere.bind_inv
  have hthere : there = s.disk.pending.isSome := sys_inv hsys
  cases hw : s.disk.pending with
  | none =>
    rw [hthere, hw]
    exact hno s₁ hs₁.1
  | some w =>
    rw [hthere, hw]
    exact hyes w s₁ hs₁.1 (hs₁.2.trans hw)

/-- **Recovery among other writers.** -/
theorem wp_keepingRecover (later : LaterCommits) (check : RecoveryCheck → Except String Unit)
    (hs : Safe h s) :
    EndsSafe h (recoverCheckedWith h expected later check) s := by
  refine wp_safe_bind (readsAt_lift _) (fun _ s₁ hs₁ => ?_) hs
  refine wp_safe_bind (readsAt_openDir _) (fun _ s₂ hs₂ => ?_) hs₁
  refine wp_safe_bind (readsAt_existsDir _ _) (fun there s₃ hs₃ => ?_) hs₂
  cases there with
  | false => exact wp_safe_ret hs₃
  | true =>
    refine wp_bind (wp_post ?_ (wp_touchingSafe touching_open hs₃))
    rintro (e | _) s₄ hs₄
    · exact hs₄
    refine wp_findPending_bind (fun s₅ hs₅ => wp_safe_ret hs₅) (fun w s₅ hs₅ hw => ?_) hs₄
    exact wp_keepingRecoverPending expected later check hs₅ hw

end CakeAutorate.UciTransaction
