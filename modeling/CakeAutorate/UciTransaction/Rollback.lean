/-
# Rolling a ready transaction back

From every ready transaction, whichever of its packages are exchanged, both
modes of the rollback find the versions they look for, put the originals back
in reverse order and retire the directory.  Nothing here can fail but the
caller's own checks, and a crash at any call leaves a ready transaction, a
marked one or an idle disk.
-/

import CakeAutorate.UciTransaction.Publication

namespace CakeAutorate.UciTransaction

open Syscall Syscall.Program Journal Version Function Inode

variable {h : Host} {c : PreparedConfig h} {a : Package → Inode} {w : Work} {s : Disk}

theorem Public.congr {s' : Disk} (hpub : Public c s) (hp : s'.packages = s.packages)
    (ha : s'.accepted = s.accepted) : Public c s' where
  readable i := by rw [hp]; exact hpub.readable i
  bytes i := by rw [hp, ha]; exact hpub.bytes i

variable {α : Type} {k : Unit → Prog α} {Q : Except String α → Disk → Prop} {i : Package}
  {x : Package → Except String Unit}

/-- `Root::retire` from inside `Inv`, once the public files are those of the outcome. -/
theorem wp_retireInv (hi : Inv c s) (hr : s.root = true) (hw : s.pending = some w)
    (hgarbage : s.garbage = none) (hg : Good h w) (htmp : MarkerPart h (w .acceptedTmp))
    (hmark : ∀ f, w .accepted = some f → f.bytes = acceptedMark)
    (hnote : (w .accepted).isSome → s.note .accepted = s)
    (howner : ∃ f, w .owner = some f ∧ f.bytes <+: ownerMark) (hpub : Public c (s.note .accepted))
    (hpart : ∀ t n, MarkerPart h t → s.supply ≤ n →
      w .accepted = none → Inv c (s.put .pending (some (update w .acceptedTmp t)) n))
    (hk : ∀ s', Inv c s' → s'.pending = none → s'.garbage = none → s'.packages = s.packages →
      s'.accepted = (s.note .accepted).accepted → wp (alone h) Q (Inv c) (k ()) s') :
    wp (alone h) Q (Inv c) (Root.retire h >>= k) s := by
  have hsupply : ∀ n, s.supply ≤ n → ∀ i, (c.original i).ino < n :=
    fun n hn i => lt_of_lt_of_le (hi.supply i) hn
  refine wp_retire hr hw hgarbage hg htmp hmark hnote hi hpart ?_ ?_ ?_
  · intro w' n hm hn
    refine ⟨hsupply n hn, fun w'' hw'' => ?_, ?_⟩
    · rw [show ((s.put .pending (some w') n).note .accepted).garbage = none from hgarbage] at hw''
      cases hw''
    · refine .retiring w' hr rfl hm.good hm.marker ?_ (hpub.congr rfl rfl)
      rw [hm.rest _ (by simp) (by simp)]
      exact howner
  · intro w' n hret hn
    refine ⟨hsupply n hn, fun w'' hw'' => ?_, .idle rfl (hpub.congr rfl rfl)⟩
    cases hw''
    exact ⟨hr, hret⟩
  · intro n hn
    refine hk _ ⟨hsupply n hn, fun w'' hw'' => ?_, .idle rfl (hpub.congr rfl rfl)⟩ rfl hgarbage rfl rfl
    rw [show ((s.put .pending none n).note .accepted).garbage = none from hgarbage] at hw''
    cases hw''

theorem sees_load (hr : ReadyAt c a w s) : Sees h (.ok (c.journal a)) (load h) s := by
  obtain ⟨fo, hfo, ho⟩ := hr.owner
  obtain ⟨fi, hfi, hi⟩ := hr.intent
  obtain ⟨fr, hfr, hrd⟩ := hr.ready
  have hwork : s.work .pending = some w := hr.pending
  have hl : ∀ {e f}, w e = some f → s.lookup (.entry .pending e) = some f := by
    intro e f hf
    simp [Disk.lookup, hwork, hf]
  refine (sees_inspect hr.root hwork hr.good).bind ?_
  refine (sees_regular (hl hfo) (hr.good _ _ hfo)).bind ((sees_ensure (by simp [ho])).bind ?_)
  refine (sees_readReceipt (hl hfi) (hr.good _ _ hfi) (by rw [hi]; exact parseReceipt_intent c)).bind ?_
  refine (sees_readReceipt (hl hfr) (hr.good _ _ hfr)
    (by rw [hrd]; exact parseReceipt_readyOf a)).bind ?_
  exact parse_journal hr.staged

theorem ReadyAt.marking (hr : ReadyAt c a w s) {t : Option Inode} (ht : MarkerPart h t) (n : ℕ) :
    ReadyAt c a (update w .acceptedTmp t) (s.put .pending (some (update w .acceptedTmp t)) n) := by
  have hne : ∀ e, e ≠ Entry.acceptedTmp → update w .acceptedTmp t e = w e :=
    fun e he => update_of_ne he ..
  refine ⟨by simpa using hr.root, rfl, by simpa using hr.accepted, hr.staged, ?_, ?_, ?_, ?_, ?_, ?_,
    fun i => ?_⟩
  · exact good_update hr.good fun f hf => (ht f hf).1
  · rw [hne _ (by simp)]; exact hr.owner
  · rw [hne _ (by simp)]; exact hr.intent
  · rw [hne _ (by simp)]; exact hr.ready
  · rw [hne _ (by simp)]; exact hr.marker
  · simpa using ht
  · have hpub : (s.put .pending (some (update w .acceptedTmp t)) n).packages i =
        s.packages i := by simp
    cases hr.member i with
    | same hc hp => exact .same hc (by rw [hpub]; exact hp)
    | before g hc hw hp hg =>
      exact .before g hc (by rw [hne _ (by simp)]; exact hw) (by rw [hpub]; exact hp) hg
    | after g hc hw hp hg =>
      exact .after g hc (by rw [hne _ (by simp)]; exact hw) (by rw [hpub]; exact hp) hg

theorem Journalled.marking (hs : Journalled c a s) (hr : ReadyAt c a w s) {t : Option Inode}
    (ht : MarkerPart h t) {n : ℕ} (hn : s.supply ≤ n) :
    Journalled c a (s.put .pending (some (update w .acceptedTmp t)) n) where
  supply i := lt_of_lt_of_le (hs.supply i) hn
  garbage := hs.garbage
  ready := ⟨_, hr.marking ht n⟩

/-- The version that a rollback puts back, if any. -/
inductive Restore (c : PreparedConfig h) (a : Package → Inode) (w : Work) (s : Disk) (i : Package) :
    Option Version → Prop where
  | keep (hp : (c.original i).SameFile (s.packages i)) : Restore c a w s i none
  | put (g : Inode) (hc : c.changed i = true) (hw : w (.swap i) = some g)
      (hp : (a i).SameFile (s.packages i)) (hg : (c.original i).SameFile g) :
      Restore c a w s i (some (ofFile h g))

theorem original_ne {f g : Inode} (ha : Staged c a) (hc : c.changed i = true)
    (hf : (a i).SameFile f) (hg : (c.original i).SameFile g) : f.ino ≠ g.ino := by
  rw [hf.ino_eq, hg.ino_eq]
  exact ha.ino i hc

section

variable (hr : ReadyAt c a w s)
include hr

theorem sees_swapToRestore {g : Inode} (hc : c.changed i = true) (hw : w (.swap i) = some g)
    (hg : (c.original i).SameFile g) :
    Sees h (.ok (ofFile h g, false)) ((c.journal a).swapToRestore h i) s := by
  obtain ⟨g', hg', hread⟩ := hr.swap hc
  rw [hw] at hg'
  cases hg'
  have hbefore : ((c.journal a).before i).matchesFile h g true = true := matchesFile_of_sameFile hg
  have hne : (g.ino == ((c.journal a).after i).identity.ino) = false := by
    have := original_ne hr.staged hc (sameFile_refl _) hg
    simpa [PreparedConfig.journal, ofFile, of, Identity.of] using this.symm
  refine hread.bind (hread.bind ?_)
  simp only [hbefore, if_true, hne, Bool.false_and, Bool.false_eq_true, if_false]
  exact reads_ret _ _

theorem ReadyAt.matches (i : Package) :
    (∃ r, Restore c a w s i r ∧ Sees h (.ok (r, false)) ((c.journal a).preflight h i) s ∧
      Sees h (.ok r) ((c.journal a).keepOrRestore h i) s) := by
  have hpm := fun v moved => sees_publicMatches (h := h) hr.root hr.publicReadable i v moved
  cases hm : hr.member i with
  | same hc hp =>
    have hjc : (c.journal a).changed i = false := hc
    have hself : ((c.journal a).before i).matchesFile h (s.packages i) false = true := by
      rw [hp]; exact matchesFile_self _ _
    refine ⟨none, .keep (by rw [hp]; exact sameFile_refl _), ?_, ?_⟩
    · simp only [preflight, hjc, Bool.not_false, if_true]
      refine (hpm _ _).bind ?_
      simp only [hself, Bool.not_true, Bool.false_eq_true, if_false]
      exact reads_ret _ _
    · simp only [keepOrRestore, hjc, Bool.not_false, if_true]
      exact reads_ret _ _
  | before g hc hw hp hg =>
    have hjc : (c.journal a).changed i = true := hc
    obtain ⟨g', hg', hread⟩ := hr.swap hc
    rw [hw] at hg'
    cases hg'
    have hafter : ((c.journal a).after i).matchesFile h (s.packages i) true = false :=
      matchesFile_of_ino_ne (original_ne hr.staged hc (sameFile_refl _) hp) true
    have hbefore : ((c.journal a).before i).matchesFile h (s.packages i) true = true :=
      matchesFile_of_sameFile hp
    have hswap : ((c.journal a).after i).matchesFile h g true = true := matchesFile_of_sameFile hg
    refine ⟨none, .keep hp, ?_, ?_⟩
    · simp only [preflight, hjc, Bool.not_true, Bool.false_eq_true, if_false]
      refine (hpm _ _).bind ?_
      simp only [hafter, Bool.false_eq_true, if_false]
      refine (hpm _ _).bind ?_
      simp only [hbefore, Bool.not_true, Bool.false_eq_true, if_false]
      refine hread.bind ?_
      simp only [hswap, Bool.not_true, Bool.false_eq_true, if_false]
      exact reads_ret _ _
    · simp only [keepOrRestore, hjc, Bool.not_true, Bool.false_eq_true, if_false]
      refine (hpm _ _).bind ?_
      simp only [hafter, Bool.not_false, if_true]
      exact reads_ret _ _
  | after g hc hw hp hg =>
    have hjc : (c.journal a).changed i = true := hc
    have hafter : ((c.journal a).after i).matchesFile h (s.packages i) true = true :=
      matchesFile_of_sameFile hp
    have hswap := sees_swapToRestore hr hc hw hg
    refine ⟨_, .put g hc hw hp hg, ?_, ?_⟩
    · simp only [preflight, hjc, Bool.not_true, Bool.false_eq_true, if_false]
      refine (hpm _ _).bind ?_
      simp only [hafter, if_true]
      exact hswap.bind (reads_ret _ _)
    · simp only [keepOrRestore, hjc, Bool.not_true, Bool.false_eq_true, if_false]
      refine (hpm _ _).bind ?_
      simp only [hafter, Bool.not_true, Bool.false_eq_true, if_false]
      exact hswap.bind (reads_ret _ _)

theorem sees_versionBytes {v : Version} {f : Inode} (hf : v.matchesFile h f true = true)
    (hwhere : s.packages i = f ∨ (v.matchesFile h (s.packages i) true = false ∧ w (.swap i) = some f)) :
    Sees h (.ok f.bytes) (versionBytes h i v) s := by
  have hpkg : ∀ b, v.matchesFile h (s.packages i) true = b →
      Sees h (.ok (if b then some (s.packages i).bytes else none)) (versionAt h (.package i) v) s := by
    rintro b rfl
    exact ⟨rfl, fun _ ht => ht, (sees_package hr.publicReadable i).bind (reads_ret _ _)⟩
  rcases hwhere with rfl | ⟨hno, hw⟩
  · exact (hpkg _ hf).bind (reads_ret _ _)
  · have hl : s.lookup (.entry .pending (.swap i)) = some f := by
      simp [Disk.lookup, show s.work .pending = some w from hr.pending, hw]
    refine (hpkg _ hno).bind (Reads.bind (a := some f.bytes) ?_ (reads_ret _ _))
    refine ⟨rfl, fun _ ht => ht, ?_⟩
    simp only [exec, hl]
    refine (sees_regular hl (hr.good _ _ hw)).bind ?_
    simp only [hf, if_true]
    exact reads_ret _ _

theorem ReadyAt.versionBytes (i : Package) :
    (∃ bytes, Sees h (.ok bytes) (versionBytes h i ((c.journal a).before i)) s) ∧
      ∃ bytes, Sees h (.ok bytes) (versionBytes h i ((c.journal a).after i)) s := by
  have hb := fun {f} (hf : (c.original i).SameFile f) =>
    (matchesFile_of_sameFile hf : ((c.journal a).before i).matchesFile h f true = true)
  have ha := fun {f} (hf : (a i).SameFile f) =>
    (matchesFile_of_sameFile hf : ((c.journal a).after i).matchesFile h f true = true)
  cases hr.member i with
  | same hc hp =>
    have ho : (c.original i).SameFile (s.packages i) := by rw [hp]; exact sameFile_refl _
    have ho' : (a i).SameFile (s.packages i) := by rw [hr.staged.unchanged i hc]; exact ho
    exact ⟨⟨_, sees_versionBytes hr (hb ho) (.inl rfl)⟩, _, sees_versionBytes hr (ha ho') (.inl rfl)⟩
  | before g hc hw hp hg =>
    have hne : ((c.journal a).after i).matchesFile h (s.packages i) true = false :=
      matchesFile_of_ino_ne (original_ne hr.staged hc (sameFile_refl _) hp) true
    exact ⟨⟨_, sees_versionBytes hr (hb hp) (.inl rfl)⟩, _,
      sees_versionBytes hr (ha hg) (.inr ⟨hne, hw⟩)⟩
  | after g hc hw hp hg =>
    have hne : ((c.journal a).before i).matchesFile h (s.packages i) true = false :=
      matchesFile_of_ino_ne (original_ne hr.staged hc hp (sameFile_refl _)).symm true
    exact ⟨⟨_, sees_versionBytes hr (hb hg) (.inr ⟨hne, hw⟩)⟩, _,
      sees_versionBytes hr (ha hp) (.inl rfl)⟩

theorem sees_recoveryViews : ∃ views, Sees h (.ok views) ((c.journal a).recoveryViews h) s := by
  have hone : ∀ i, ∃ view, Sees h (.ok view) ((c.journal a).recoveryView h i) s := by
    intro i
    obtain ⟨⟨b, hb⟩, a', ha⟩ := hr.versionBytes i
    exact ⟨(b, a'), ha.attempt.bind (hb.attempt.bind (reads_ret _ _))⟩
  obtain ⟨v₀, h₀⟩ := hone .cakeAutorate
  obtain ⟨v₁, h₁⟩ := hone .sqm
  exact ⟨_, h₀.bind (h₁.bind (reads_ret _ _))⟩

theorem sees_recoveryViewsKeepingLater :
    ∃ views, Sees h (.ok views) ((c.journal a).recoveryViewsKeepingLater h) s := by
  have hone : ∀ i, ∃ view, Sees h (.ok view) ((c.journal a).recoveryViewKeepingLater h i) s := by
    intro i
    obtain ⟨⟨b, hb⟩, a', ha⟩ := hr.versionBytes i
    exact ⟨(b, a'), ha.attempt.bind (hb.attempt.bind (reads_ret _ _))⟩
  obtain ⟨v₀, h₀⟩ := hone .cakeAutorate
  obtain ⟨v₁, h₁⟩ := hone .sqm
  exact ⟨_, h₀.bind (h₁.bind (reads_ret _ _))⟩

end

variable {checkpoint : Package → Prog Unit}

/-- One round of `Journal::restore_swaps`: the original is public afterwards,
and the other package is untouched. -/
theorem wp_restoreMember (hs : Journalled c a s) (hr : ReadyAt c a w s)
    {restore : Package → Option Version} (hres : Restore c a w s i (restore i))
    {x : Except String Unit} (hcp : checkpoint i = lift x)
    (herr : ∀ e, x = .error e → Q (.error e) s)
    (hk : ∀ s' w', Journalled c a s' → ReadyAt c a w' s' → s'.accepting = s.accepting →
      (∀ k, k ≠ i → s'.packages k = s.packages k ∧ w' (.swap k) = w (.swap k)) →
      (c.original i).SameFile (s'.packages i) →
      ((restore i).getD (ofFile h (s.packages i))).matchesFile h (s'.packages i) true = true →
      wp (alone h) Q (Inv c) (k ()) s') :
    wp (alone h) Q (Inv c) ((c.journal a).restoreMember h restore checkpoint i >>= k) s := by
  unfold restoreMember
  generalize restore i = r at hres hk
  cases hres with
  | keep hp =>
    exact hk s w hs hr rfl (fun _ _ => ⟨rfl, rfl⟩) hp (matchesFile_self _ _)
  | put g hc hw hp hg =>
    have hpm := sees_publicMatches (h := h) hr.root hr.publicReadable i
    have hafter : ((c.journal a).after i).matchesFile h (s.packages i) true = true :=
      matchesFile_of_sameFile hp
    obtain ⟨g', hg', hread⟩ := hr.swap hc
    rw [hw] at hg'
    cases hg'
    simp only [bind_bind]
    refine (hpm _ _).wp_bind ?_
    simp only [hafter, Bool.not_true, Bool.false_eq_true, if_false, bind_bind]
    refine hread.wp_bind ?_
    simp only [bne_self_eq_false, Bool.false_eq_true, if_false, hcp, bind_bind]
    cases x with
    | error e => exact wp_alone_ret hs.inv (herr e rfl)
    | ok _ =>
      refine (reads_ret (.ok ()) s).wp_bind ?_
      refine wp_exchangeSwap hr.pending hw hs.inv ?_
      set t := h.clock s.supply
      have hs' := hs.exchanged hr hc hw t
      have hr' := hr.exchanged hc hw t
      have hpub : (s.exchanged i w g t).packages i = g.touch t := by simp [Disk.exchanged]
      have hdisp : (ofFile h g).matchesFile h ((s.exchanged i w g t).packages i) true = true := by
        rw [hpub]
        exact matchesFile_of_sameFile (sameFile_touch _ _)
      obtain ⟨g', hg', hread'⟩ := hr'.swap hc
      rw [update_self] at hg'
      cases hg'
      have hswap : ((c.journal a).after i).matchesFile h ((s.packages i).touch t) true = true :=
        matchesFile_of_sameFile (hp.touch t)
      unfold checkRestored
      simp only [bind_bind]
      refine (sees_publicMatches hr'.root hr'.publicReadable i _ _).wp_bind ?_
      simp only [hdisp, Bool.not_true, Bool.false_eq_true, if_false, bind_bind]
      refine hread'.wp_bind ?_
      simp only [hswap, Bool.not_true, Bool.false_eq_true, if_false]
      refine hk _ _ hs' hr' rfl (fun k hk => ⟨?_, ?_⟩) (by rw [hpub]; exact hg.touch t) hdisp
      · simp [Disk.exchanged, hk]
      · exact update_of_ne (by simpa using hk) ..

/-- `Journal::restore_swaps`: both originals are public afterwards. -/
theorem wp_restoreSwaps (hs : Journalled c a s) (hr : ReadyAt c a w s)
    (restore : Package → Option Version) (hres : ∀ i, Restore c a w s i (restore i))
    (hcp : ∀ i, checkpoint i = lift (x i))
    (herr : ∀ i e s', x i = .error e → Journalled c a s' → Q (.error e) s')
    (hk : ∀ s', Journalled c a s' → s'.accepting = s.accepting →
      (∀ i, (c.original i).SameFile (s'.packages i)) →
      (∀ i, ((restore i).getD (ofFile h (s.packages i))).matchesFile h (s'.packages i) true = true) →
      wp (alone h) Q (Inv c) (k ()) s') :
    wp (alone h) Q (Inv c) ((c.journal a).restoreSwaps h restore checkpoint >>= k) s := by
  unfold restoreSwaps
  simp only [bind_bind]
  refine wp_restoreMember hs hr (hres .sqm) (hcp _) (fun e he => herr _ e s he hs) ?_
  intro s₁ w₁ hs₁ hr₁ hacc₁ hother hp₁ hm₁
  obtain ⟨hpub, hswap⟩ := hother .cakeAutorate (by simp)
  have hres₁ : Restore c a w₁ s₁ .cakeAutorate (restore .cakeAutorate) := by
    have := hres .cakeAutorate
    generalize restore .cakeAutorate = r at this
    cases this with
    | keep hp => exact .keep (by rw [hpub]; exact hp)
    | put g hc hw hp hg => exact .put g hc (by rw [hswap]; exact hw) (by rw [hpub]; exact hp) hg
  refine wp_restoreMember hs₁ hr₁ hres₁ (hcp _) (fun e he => herr _ e s₁ he hs₁) ?_
  intro s₂ w₂ hs₂ hr₂ hacc₂ hother₂ hp₂ hm₂
  obtain ⟨hpub₂, -⟩ := hother₂ .sqm (by simp)
  rw [hpub] at hm₂
  refine hk s₂ hs₂ (hacc₂.trans hacc₁) ?_ ?_
  · rintro (_ | _)
    · exact hp₂
    · rw [hpub₂]; exact hp₁
  · rintro (_ | _)
    · exact hm₂
    · rw [hpub₂]; exact hm₁

theorem wp_retireRolledBack (hs : Journalled c a s) (hacc : s.accepting = false)
    (hp : ∀ i, (c.original i).SameFile (s.packages i))
    (hk : ∀ s', Inv c s' → s'.pending = none → s'.garbage = none → s'.packages = s.packages →
      s'.accepted = false → wp (alone h) Q (Inv c) (k ()) s') :
    wp (alone h) Q (Inv c) (Root.retire h >>= k) s := by
  obtain ⟨w, hr⟩ := hs.ready
  have hnote : s.note .accepted = s := s.note_of_not_accepting hacc
  have hpublic : Public c s := by
    refine ⟨hr.publicReadable, fun i => ?_⟩
    rw [hr.accepted, (hp i).bytes_eq]
    rfl
  refine wp_retireInv hs.inv hr.root hr.pending hs.garbage hr.good hr.tmp ?_ (fun _ => hnote) ?_ ?_
    ?_ ?_
  · intro f hf
    rw [hr.marker] at hf
    cases hf
  · obtain ⟨f, hf, hb⟩ := hr.owner
    exact ⟨f, hf, by rw [hb]⟩
  · rw [hnote]; exact hpublic
  · intro t n ht hn _
    exact (hs.marking hr ht hn).inv
  · intro s' hi' hp' hg' hpk' ha'
    exact hk s' hi' hp' hg' hpk' (by rw [ha', hnote, hr.accepted])

/-- The disk after a rollback. -/
structure RolledBack (c : PreparedConfig h) (s : Disk) : Prop where
  inv : Inv c s
  pending : s.pending = none
  garbage : s.garbage = none
  accepted : s.accepted = false
  original : ∀ i, (c.original i).SameFile (s.packages i)

section

variable (hs : Journalled c a s) (hacc : s.accepting = false)
include hs hacc

/-- `Journal::rollback_with_status`: only the caller's checks can fail. -/
theorem wp_rollbackWithStatus {k : Bool → Prog α} (bad : Prop)
    {checkpoint : Option Package → Bool → Prog Unit}
    (hcp : ∀ i, checkpoint (some i) false = lift (x i)) (hx : ∀ i e, x i = .error e → bad)
    (hend : ∀ s', Journalled c a s' → (∀ i, (c.original i).SameFile (s'.packages i)) →
      Sees h (.ok ()) (checkpoint none false) s' ∨ bad ∧
      ∃ e, Sees h (.error e) (checkpoint none false) s')
    (herr : ∀ e s', bad → Journalled c a s' → Q (.error e) s')
    (hk : ∀ s', RolledBack c s' → wp (alone h) Q (Inv c) (k false) s') :
    wp (alone h) Q (Inv c) ((c.journal a).rollbackWithStatus h checkpoint >>= k) s := by
  obtain ⟨w, hr⟩ := hs.ready
  obtain ⟨r₀, hres₀, hpre₀, -⟩ := hr.matches .cakeAutorate
  obtain ⟨r₁, hres₁, hpre₁, -⟩ := hr.matches .sqm
  unfold rollbackWithStatus
  simp only [bind_bind]
  refine (sees_lockSources hr.root hr.publicReadable).wp_bind ?_
  refine (sees_inspect (p := .pending) hr.root hr.pending hr.good).wp_bind ?_
  refine hpre₀.wp_bind (hpre₁.wp_bind ?_)
  refine wp_restoreSwaps hs hr (Package.pick r₀ r₁) ?_ (x := x) hcp ?_ ?_
  · rintro (_ | _)
    exacts [hres₀, hres₁]
  · intro i e s' hxi hs'
    exact herr e s' (hx i e hxi) hs'
  intro s₁ hs₁ hacc₁ hp₁ _
  rcases hend s₁ hs₁ hp₁ with hsees | ⟨hbad, e, hsees⟩
  · refine hsees.wp_bind ?_
    refine wp_retireRolledBack hs₁ (hacc₁.trans hacc) hp₁ ?_
    intro s₂ hi₂ hp₂ hg₂ hpk₂ ha₂
    exact hk s₂ ⟨hi₂, hp₂, hg₂, ha₂, fun i => by rw [hpk₂]; exact hp₁ i⟩
  · exact (hsees.bind_error).wp hs₁.inv (herr e s₁ hbad hs₁)

/-- `Journal::rollback_keeping_later`: with no later commit it does the same,
and its receipt is that of the public files. -/
theorem wp_rollbackKeepingLater {k : (Package → Version) → Prog α} (bad : Prop)
    {checkpoint : Option Package → (Package → Version) → Prog Unit}
    (hcp : ∀ i receipt, checkpoint (some i) receipt = lift (x i)) (hx : ∀ i e, x i = .error e → bad)
    (hend : ∀ s' receipt, Journalled c a s' →
      (∀ i, (receipt i).matchesFile h (s'.packages i) true = true) →
      Sees h (.ok ()) (checkpoint none receipt) s' ∨ bad ∧
      ∃ e, Sees h (.error e) (checkpoint none receipt) s')
    (herr : ∀ e s', bad → Journalled c a s' → Q (.error e) s')
    (hk : ∀ s' receipt, RolledBack c s' →
      (∀ i, (receipt i).matchesFile h (s'.packages i) true = true) →
      wp (alone h) Q (Inv c) (k receipt) s') :
    wp (alone h) Q (Inv c) ((c.journal a).rollbackKeepingLater h checkpoint >>= k) s := by
  obtain ⟨w, hr⟩ := hs.ready
  obtain ⟨r₀, hres₀, -, hkeep₀⟩ := hr.matches .cakeAutorate
  obtain ⟨r₁, hres₁, -, hkeep₁⟩ := hr.matches .sqm
  have hpv : ∀ i, Sees h (.ok (s.packages i)) (publicVersion h i) s := fun i =>
    (sees_rootAttest hr.root).bind (sees_package hr.publicReadable i)
  unfold rollbackKeepingLater
  simp only [bind_bind]
  refine (sees_lockSources hr.root hr.publicReadable).wp_bind ?_
  refine (sees_inspect (p := .pending) hr.root hr.pending hr.good).wp_bind ?_
  refine (hpv _).wp_bind ((hpv _).wp_bind (hkeep₀.wp_bind (hkeep₁.wp_bind ?_)))
  refine wp_restoreSwaps hs hr (Package.pick r₀ r₁) ?_ (x := x) (fun i => hcp i _) ?_ ?_
  · rintro (_ | _)
    exacts [hres₀, hres₁]
  · intro i e s' hxi hs'
    exact herr e s' (hx i e hxi) hs'
  intro s₁ hs₁ hacc₁ hp₁ hm₁
  have hm₁' : ∀ i, (Package.pick (r₀.getD (ofFile h (s.packages .cakeAutorate)))
      (r₁.getD (ofFile h (s.packages .sqm))) i).matchesFile h (s₁.packages i) true = true := by
    rintro (_ | _)
    exacts [hm₁ .cakeAutorate, hm₁ .sqm]
  rcases hend s₁ _ hs₁ hm₁' with hsees | ⟨hbad, e, hsees⟩
  · refine hsees.wp_bind ?_
    refine wp_retireRolledBack hs₁ (hacc₁.trans hacc) hp₁ ?_
    intro s₂ hi₂ hp₂ hg₂ hpk₂ ha₂
    exact hk s₂ _ ⟨hi₂, hp₂, hg₂, ha₂, fun i => by rw [hpk₂]; exact hp₁ i⟩
      fun i => by rw [hpk₂]; exact hm₁' i
  · exact (hsees.bind_error).wp hs₁.inv (herr e s₁ hbad hs₁)

/-- `Journal::rollback` always succeeds. -/
theorem wp_rollback {k : Bool → Prog α}
    (hk : ∀ s', RolledBack c s' → wp (alone h) Q (Inv c) (k false) s') :
    wp (alone h) Q (Inv c) ((c.journal a).rollback h >>= k) s :=
  wp_rollbackWithStatus hs hacc False (x := fun _ => .ok ()) (fun _ => rfl) (by simp)
    (fun s' _ _ => .inl (reads_ret _ _)) (fun _ _ hb => hb.elim) hk

end

end CakeAutorate.UciTransaction
