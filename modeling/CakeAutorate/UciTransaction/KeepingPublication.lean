/-
# Publication among other writers

While a transaction is prepared every commit is public, since nothing but the private directory is
written.  The rename of the `ready` receipt makes it a ready transaction that holds nothing; each
exchange then puts whatever was public into the swap and the candidate in its place, so a commit
that landed in the gap before the exchange is held.
-/

import CakeAutorate.UciTransaction.KeepingRecovery

namespace CakeAutorate.UciTransaction

open Syscall Syscall.Program Disk Journal Function Nat Package Version ReadsAt

variable {h : Host} {c : PreparedConfig h} {a : Package → Inode} {w : Work} {s : Shared}
  {i : Package} {e : Entry}

/-- A directory in preparation. -/
structure Preparing (c : PreparedConfig h) (w : Work) (s : Shared) : Prop where
  numbered : Numbered s
  original : ∀ i, (c.original i).ino < s.disk.supply
  root : s.disk.root = true
  pending : s.disk.pending = some w
  settled : ∀ i, AtPublic i s
  ready : w .ready = none
  marker : w .accepted = none
  ours : ∀ e g, w e = some g → Ours s g

theorem Preparing.safe (hp : Preparing c w s) : Safe h s :=
  .settled hp.numbered hp.settled fun w' hw' => by
    rw [hp.pending] at hw'
    cases hw'
    exact ⟨hp.root, .inl hp.ready⟩

theorem stable_preparing : (careful h).Stable (Preparing c w) := by
  rintro s s' ⟨i, f, hf, rfl⟩ hs
  exact ⟨hs.numbered.commit hf, fun i => lt_succ_of_lt (hs.original i), hs.root, hs.pending,
    fun i => (hs.settled i).commit, hs.ready, hs.marker, fun e g hg => (hs.ours e g hg).commit hf⟩

/-- A file `f` is put under a name of the directory. -/
structure Puts (e : Entry) (f : Inode) (w : Work) (s s' : Shared) : Prop where
  disk : s'.disk = s.disk.put .pending (some (update w e (some f))) (s.disk.supply + 1)
  last : s'.last = s.last

variable {s' : Shared}

theorem Puts.ours {f g : Inode} (hp : Puts e f w s s') (hg : Ours s g) : Ours s' g := by
  refine ⟨?_, by rw [hp.last]; exact hg.2⟩
  rw [hp.disk]
  exact lt_succ_of_lt hg.1

theorem Preparing.put {f : Inode} (hs : Preparing c w s) (hp : Puts e f w s s') (hf : Ours s' f)
    (hready : e ≠ .ready) (hmarker : e ≠ .accepted) :
    Preparing c (update w e (some f)) s' := by
  have hours : ∀ e' g, update w e (some f) e' = some g → Ours s' g := by
    intro e' g hg
    by_cases he : e' = e
    · rw [he, update_self] at hg
      cases hg
      exact hf
    · rw [update_of_ne he] at hg
      exact hp.ours (hs.ours e' g hg)
  refine ⟨⟨?_, ?_, ?_⟩, ?_, ?_, ?_, ?_, ?_, ?_, hours⟩
  · rw [hp.last, hp.disk]
    exact fun i f hf => lt_succ_of_lt (hs.numbered.last i f hf)
  · rw [hp.disk]
    exact fun i => by simpa using lt_succ_of_lt (hs.numbered.packages i)
  · intro w' i g hw' hg
    rw [hp.disk] at hw'
    cases hw'
    exact (hours _ g hg).1
  · rw [hp.disk]
    exact fun i => lt_succ_of_lt (hs.original i)
  · rw [hp.disk]; exact hs.root
  · rw [hp.disk]; rfl
  · intro i f hf
    rw [hp.last] at hf
    rw [hp.disk]
    exact hs.settled i f hf
  · rw [update_of_ne (Ne.symm hready)]; exact hs.ready
  · rw [update_of_ne (Ne.symm hmarker)]; exact hs.marker

section Prepare

variable {β : Type} {Q : Except String β → Shared → Prop}

theorem wp_preparing_bind {α : Type} {p : Prog α} {f : α → Prog β} (hp : ReadsOnly p)
    (herr : ∀ e s', Safe h s' → Q (.error e) s')
    (hk : ∀ r s', Preparing c w s' → wp (careful h) Q Stored (f r) s') (hs : Preparing c w s) :
    wp (careful h) Q Stored (p >>= f) s :=
  wp_keep_bind hp stable_preparing (fun _ hs => hs.safe.stored) (fun e s hs => herr e s hs.safe) hk hs

/-- A call that puts a file under the name `e`. -/
theorem wp_puts {call : Call} {k : Reply call → Prog β} {r : Reply call} {g : ℕ → Inode}
    (hc : call.Touching (· = e))
    (hexec : ∀ d : Disk, d.pending = some w → exec h call d =
      (r, d.put .pending (some (update w e (some (g d.supply)))) (d.supply + 1)))
    (hours : ∀ s s', Preparing c w s → Puts e (g s.disk.supply) w s s' → Ours s' (g s.disk.supply))
    (hready : e ≠ .ready) (hmarker : e ≠ .accepted)
    (hk : ∀ n s', Preparing c (update w e (some (g n))) s' → (∀ i, (c.original i).ino < n) →
      wp (careful h) Q Stored (k r) s') (hs : Preparing c w s) :
    wp (careful h) Q Stored (sys call >>= k) s := by
  refine wp_sys_bind stable_preparing (fun _ hs => hs.safe.stored) (fun s₁ s₂ hs₁ ht i => .inl ?_)
    (fun s₁ r' s₂ hs₁ hstep => ?_) hs
  · exact (hc.torn ht.1).atPublic ht.2 (hs₁.settled i)
  · have hpair := hstep.2.1
    rw [hexec _ hs₁.pending] at hpair
    obtain ⟨hr, hd⟩ := Prod.mk.inj hpair
    subst hr
    have hput : Puts e (g s₁.disk.supply) w s₁ s₂ := ⟨hd.symm, hstep.2.2⟩
    exact hk _ s₂ (hs₁.put hput (hours s₁ s₂ hs₁ hput) hready hmarker) hs₁.original

/-- The file just put under `e` is changed. -/
theorem wp_putsAgain {call : Call} {k : Reply call → Prog β} {r : Reply call} {f : Inode}
    {g : Inode → ℕ → Inode} (hc : call.Touching (· = e))
    (hexec : ∀ d : Disk, exec h call d = (r, (d.modify .pending e fun f => g f d.supply).tick))
    (hino : ∀ f n, (g f n).ino = f.ino) (hready : e ≠ .ready) (hmarker : e ≠ .accepted)
    (hk : ∀ n s', Preparing c (update w e (some (g f n))) s' →
      wp (careful h) Q Stored (k r) s') (hs : Preparing c (update w e (some f)) s) :
    wp (careful h) Q Stored (sys call >>= k) s := by
  refine wp_puts (w := update w e (some f)) (r := r) (g := g f) hc ?_ ?_ hready hmarker ?_ hs
  · intro d hd
    rw [hexec]
    simp [Disk.modify, Disk.work, hd, Disk.put, Disk.setWork, Disk.tick]
  · intro s s' hs hp
    have hof := hp.ours (hs.ours e f (by simp))
    exact ⟨by rw [hino]; exact hof.1, fun i f' hf' => by rw [hino]; exact hof.2 i f' hf'⟩
  · intro n s' hs' _
    rw [update_idem] at hs'
    exact hk n s' hs'

section

variable (hready : e ≠ .ready) (hmarker : e ≠ .accepted) (hno : w e = none)
  (herr : ∀ e s', Safe h s' → Q (.error e) s')
include hready hmarker hno herr

/-- `write_new` in a directory in preparation. -/
theorem wp_preparingWriteNew {k : Unit → Prog β} {bytes : Bytes}
    (hk : ∀ f n s', Fresh h n bytes f → (∀ i, (c.original i).ino < n) →
      Preparing c (update w e (some f)) s' → wp (careful h) Q Stored (k ()) s')
    (hs : Preparing c w s) : wp (careful h) Q Stored (writeNew h .pending e bytes >>= k) s := by
  unfold writeNew
  simp only [bind_bind]
  refine wp_preparing_bind (readsAt_attest _) herr (fun _ s₁ hs₁ => ?_) hs
  refine wp_puts (r := true) (g := newFile h) rfl ?_ ?_ hready hmarker (fun n s₂ hs₂ hn => ?_) hs₁
  · intro d hd
    simp [exec, work, hd, hno, put, setWork, tick]
  · intro s s' hs hp
    refine ⟨by rw [hp.disk]; exact lt_succ_self _, fun i f hf => ?_⟩
    rw [hp.last] at hf
    exact (hs.numbered.last i f hf).ne
  refine wp_preparing_bind (readsAt_ensure _ _) herr (fun _ s₃ hs₃ => ?_) hs₂
  refine wp_putsAgain (r := ()) (g := fun f n => f.append bytes (h.clock n)) rfl (fun d => rfl)
    (fun _ _ => rfl) hready hmarker (fun n' s₄ hs₄ => ?_) hs₃
  have hfresh : Fresh h n bytes ((newFile h n).append bytes (h.clock n')) := ⟨rfl, rfl, rfl, rfl⟩
  refine wp_preparing_bind (only_perform (by trivial)) herr (fun _ s₅ hs₅ => ?_) hs₄
  refine wp_preparing_bind (readsAt_attest _) herr (fun _ s₆ hs₆ => ?_) hs₅
  refine wp_preparing_bind (only_perform (by trivial)) herr (fun file s₇ hs₇ => ?_) hs₆
  cases file with
  | none =>
    exact wp_ret_stable stable_preparing (fun _ hs => hs.safe.stored)
      (fun s hs => herr _ s hs.safe) hs₇
  | some file =>
    simp only [bind_bind]
    exact wp_preparing_bind (readsAt_fileIdentity trivial _ _) herr
      (fun _ s₈ hs₈ => hk _ n s₈ hfresh hn hs₈) hs₇

/-- `write_receipt` in a directory in preparation. -/
theorem wp_preparingWriteReceipt {k : Unit → Prog β} {v : Json}
    (hk : ∀ f s', f.bytes = receiptBytes h v → Preparing c (update w e (some f)) s' →
      wp (careful h) Q Stored (k ()) s')
    (hs : Preparing c w s) : wp (careful h) Q Stored (writeReceipt h .pending e v >>= k) s := by
  unfold writeReceipt
  simp only [bind_bind]
  refine wp_preparing_bind (readsAt_ensure _ _) herr (fun _ s₁ hs₁ => ?_) hs
  refine wp_preparingWriteNew hready hmarker hno herr (fun f n s₂ hf _ hs₂ => ?_) hs₁
  exact wp_preparing_bind (readsAt_sync _) herr (fun _ s₃ hs₃ => hk f s₃ hf.bytes_eq hs₃) hs₂

end

theorem wp_preparingStage {k : Version → Prog β} (i : Package) (hno : w (.swap i) = none)
    (herr : ∀ e s', Safe h s' → Q (.error e) s')
    (hk : ∀ f w' s', StagedMember c i f w w' → Preparing c w' s' →
      wp (careful h) Q Stored (k (ofFile h f)) s') (hs : Preparing c w s) :
    wp (careful h) Q Stored (stage h c (fun i => ofFile h (c.original i)) c.changed i >>= k) s := by
  cases hc : c.changed i with
  | false =>
    simp only [stage, hc, Bool.not_false, if_true]
    have hsame : (c.original i).bytes = c.candidate i := by
      have := hc
      simp only [PreparedConfig.changed, bne_eq_false_iff_eq] at this
      exact this.symm
    exact hk _ w s ⟨hsame, rfl, rfl, rfl, .inl ⟨hc, rfl, rfl⟩⟩ hs
  | true =>
    have hsafe := c.original_safe i
    simp only [safe, Bool.and_eq_true, beq_iff_eq] at hsafe
    unfold stage
    simp only [hc, Bool.not_true, Bool.false_eq_true, if_false, bind_bind]
    refine wp_preparing_bind (readsOnly_configAttest c) herr (fun _ s₁ hs₁ => ?_) hs
    refine wp_preparing_bind readsAt_rootAttest herr (fun _ s₂ hs₂ => ?_) hs₁
    refine wp_preparingWriteNew (by simp) (by simp) hno herr (fun f n s₃ hf hn hs₃ => ?_) hs₂
    -- `fchown`, then `fchmod`
    refine wp_putsAgain (r := true) (g := fun f n => { f with
      uid := (c.original i).uid, gid := (c.original i).gid, ctime := h.clock n }) rfl (fun d => rfl)
      (fun _ _ => rfl) (by simp) (by simp) (fun n₁ s₄ hs₄ => ?_) hs₃
    simp only [Bool.not_true, Bool.false_eq_true, if_false, bind_bind]
    refine wp_putsAgain (r := true) (g := fun f n => { f with
      mode := 0o100000 + (c.original i).mode % 0o10000, ctime := h.clock n }) rfl (fun d => rfl)
      (fun _ _ => rfl) (by simp) (by simp) (fun n₂ s₅ hs₅ => ?_) hs₄
    simp only [Bool.not_true, Bool.false_eq_true, if_false, bind_bind]
    set f₂ : Inode := { f with
      uid := (c.original i).uid, gid := (c.original i).gid,
      mode := 0o100000 + (c.original i).mode % 0o10000, ctime := h.clock n₂ } with hf₂
    have hmember : StagedMember c i f₂ w (update w (.swap i) (some f₂)) := by
      refine ⟨hf.bytes_eq, rfl, rfl, mode_eq hsafe.1.1 (c.original_mode i), .inr ⟨hc, ?_, rfl⟩⟩
      have hino : f₂.ino = n := hf.ino
      rw [hino]
      exact (hn i).ne'
    refine wp_preparing_bind (only_perform (by trivial)) herr (fun _ s₆ hs₆ => ?_) hs₅
    refine wp_private_bind (readsAt_regular trivial _ _) stable_preparing
      (fun _ hs => hs.safe.stored) (fun e s hs => herr e s hs.safe) (fun file s₇ hfile hs₇ => ?_) hs₆
    have hsw := (readSwap_inv hs₆.pending hfile).1
    rw [update_self] at hsw
    cases hsw
    exact wp_preparing_bind (readsAt_ensure _ _) herr (fun _ s₈ hs₈ => hk f₂ _ s₈ hmember hs₈) hs₇

theorem Preparing.rename {w₀ w₁ : Work} {f₀ f₁ g g' : Inode} {s' : Shared}
    (hs : Preparing c (update w .readyTmp (some g)) s)
    (hintent : ∃ f, w₀ .intent = some f ∧ f.bytes = receiptBytes h c.intent)
    (hno : ∀ i, w₀ (.swap i) = none)
    (h₀ : StagedMember c .cakeAutorate f₀ w₀ w₁) (h₁ : StagedMember c .sqm f₁ w₁ w)
    (hbytes : g'.bytes = receiptBytes h (readyOf h (pick f₀ f₁)))
    (hd : s'.disk = s.disk.put .pending (some (update (update w .readyTmp none)
      .ready (some g'))) (s.disk.supply + 1)) (hl : s'.last = s.last) :
    AtRest c (pick f₀ f₁) (update (update w .readyTmp none)
      .ready (some g')) s' ∧ ∀ i, c.changed i = true →
        update (update w .readyTmp none) .ready (some g') (.swap i) = some (pick f₀ f₁ i) := by
  set w' : Work := update (update w .readyTmp none) .ready (some g') with hw'
  have hrest : ∀ e, e ≠ .ready → e ≠ .readyTmp → w' e = w e := by
    intro e he he'
    simp [hw', he, he']
  have hkeep : ∀ e, (∀ i, e ≠ .swap i) → w e = w₀ e := by
    intro e he
    rw [h₁.rest (he _), h₀.rest (he _)]
  have hswap : ∀ i, c.changed i = true → w' (.swap i) = some (pick f₀ f₁ i) := by
    intro i hc
    rw [hrest _ (by simp) (by simp)]
    exact staged_swap h₀ h₁ hc
  have hunchanged : ∀ i, c.changed i = false → w' (.swap i) = none := by
    intro i hc
    rw [hrest _ (by simp) (by simp)]
    cases i with
    | cakeAutorate =>
      rw [h₁.rest (by simp)]
      rcases h₀.work with ⟨-, -, rfl⟩ | ⟨hc', -⟩
      · exact hno _
      · rw [hc] at hc'; cases hc'
    | sqm =>
      rcases h₁.work with ⟨-, -, rfl⟩ | ⟨hc', -⟩
      · rw [h₀.rest (by simp)]; exact hno _
      · rw [hc] at hc'; cases hc'
  have hours : ∀ i f, w' (.swap i) = some f → Ours s' f := by
    intro i f hf
    have := hs.ours (.swap i) f (by rw [update_of_ne (by simp)]; exact hf)
    refine ⟨?_, by rw [hl]; exact this.2⟩
    rw [hd]
    exact lt_succ_of_lt this.1
  have hn : Numbered s' := by
    refine ⟨?_, ?_, fun w'' i f hw'' hf => ?_⟩
    · rw [hl, hd]
      exact fun i f hf => lt_succ_of_lt (hs.numbered.last i f hf)
    · rw [hd]
      exact fun i => by simpa using lt_succ_of_lt (hs.numbered.packages i)
    · rw [hd] at hw''
      cases hw''
      exact (hours i f hf).1
  have hpub : ∀ i, AtPublic i s' := by
    intro i f hf
    rw [hl] at hf
    rw [hd]
    exact hs.settled i f hf
  refine ⟨⟨hn, ⟨⟨?_, ?_, ?_, ⟨staged_pair h₀ h₁, ?_, ?_⟩, ?_, hunchanged⟩, fun i => .inl (hpub i)⟩⟩,
    hswap⟩
  · rw [hd]; exact hs.root
  · rw [hd]; rfl
  · have := hs.marker
    rw [hrest _ (by simp) (by simp)]; exact this
  · rw [hrest _ (by simp) (by simp), hkeep _ (by simp)]; exact hintent
  · exact ⟨g', by simp [hw'], hbytes⟩
  · exact fun i hc => hours i _ (hswap i hc)

/-- The second half of `Journal::prepare`. -/
theorem wp_preparingStageBoth {k : Journal → Prog β}
    (hintent : ∃ f, w .intent = some f ∧ f.bytes = receiptBytes h c.intent)
    (hno : ∀ i, w (.swap i) = none) (hnoTmp : w .readyTmp = none)
    (herr : ∀ e s', Safe h s' → Q (.error e) s')
    (hk : ∀ a w' s', AtRest c a w' s' → (∀ i, c.changed i = true → w' (.swap i) = some (a i)) →
      wp (careful h) Q Stored (k (c.journal a)) s') (hs : Preparing c w s) :
    wp (careful h) Q Stored (stageBoth h c (fun i => ofFile h (c.original i)) c.changed >>= k) s := by
  simp only [stageBoth, bind_bind]
  refine wp_preparingStage .cakeAutorate (hno _) herr (fun f₀ w₁ s₁ h₀ hs₁ => ?_) hs
  have hno₁ : w₁ (.swap .sqm) = none := by rw [h₀.rest (by simp)]; exact hno _
  refine wp_preparingStage .sqm hno₁ herr (fun f₁ w₂ s₂ h₁ hs₂ => ?_) hs₁
  refine wp_preparing_bind (readsOnly_configAttest c) herr (fun _ s₃ hs₃ => ?_) hs₂
  refine wp_preparing_bind readsAt_rootAttest herr (fun _ s₄ hs₄ => ?_) hs₃
  have hnoTmp₂ : w₂ .readyTmp = none := by rw [h₁.rest (by simp), h₀.rest (by simp)]; exact hnoTmp
  refine wp_preparingWriteReceipt (by simp) (by simp) hnoTmp₂ herr (fun g s₅ hg hs₅ => ?_) hs₄
  -- the rename: from here on the transaction is ready
  unfold renameEntry renameBetween
  simp only [bind_bind]
  refine wp_preparing_bind (readsAt_attest _) herr (fun _ s₆ hs₆ => ?_) hs₅
  refine wp_preparing_bind (readsAt_attest _) herr (fun _ s₇ hs₇ => ?_) hs₆
  refine wp_sys_bind stable_preparing (fun _ hs => hs.safe.stored) (fun _ _ _ ht => False.elim ht.1)
    (fun s₈ r s₉ hs₈ hstep => ?_) hs₇
  have hexec : exec h (.rename .pending .readyTmp .ready) s₈.disk = (.done, s₈.disk.put .pending
      (some (update (update w₂ .readyTmp none) .ready
        (some (g.touch (h.clock s₈.disk.supply))))) (s₈.disk.supply + 1)) := by
    have hready : w₂ .ready = none := by
      have := hs₈.ready
      rwa [update_of_ne (by simp)] at this
    simp [exec, work, hs₈.pending, hready, put, setWork, tick, note]
  have hpair := hstep.2.1
  rw [hexec] at hpair
  obtain ⟨hr, hd⟩ := Prod.mk.inj hpair
  subst hr
  have hbytes : (g.touch (h.clock s₈.disk.supply)).bytes =
      receiptBytes h (readyOf h (pick f₀ f₁)) := hg
  obtain ⟨hrest, hswap⟩ := hs₈.rename hintent hno h₀ h₁ hbytes hd.symm hstep.2.2
  simp only [renamed, pure_eq, ret_ok_bind]
  have hkeep : ∀ {α : Type} {p : Prog α} {f : α → Prog β} {s : Shared} {w' : Work}, ReadsOnly p →
      (∀ r s', AtRest c (pick f₀ f₁) w' s' → wp (careful h) Q Stored (f r) s') →
      AtRest c (pick f₀ f₁) w' s → wp (careful h) Q Stored (p >>= f) s :=
    fun hp hk hs => wp_keep_bind hp stable_atRest (fun _ hs => hs.safe.stored)
      (fun e s hs => herr e s hs.safe) hk hs
  refine hkeep (readsAt_sync _) (fun _ s₁₀ hs₁₀ => ?_) hrest
  refine hkeep (readsAt_sync _) (fun _ s₁₁ hs₁₁ => ?_) hs₁₀
  have heq : (⟨fun i => ofFile h (c.original i),
      pick (ofFile h f₀) (ofFile h f₁), c.changed⟩ : Journal) =
      c.journal (pick f₀ f₁) := by
    simp only [PreparedConfig.journal, Journal.mk.injEq, true_and, and_true]
    funext i
    cases i <;> rfl
  rw [heq]
  exact hk _ _ s₁₁ hs₁₁ hswap

def Captured (c : PreparedConfig h) (s : Shared) : Prop := ∀ i, (c.original i).ino < s.disk.supply

theorem stable_captured : (careful h).Stable (Captured c) := by
  rintro s s' ⟨i, f, -, rfl⟩ hs k
  exact lt_succ_of_lt (hs k)

theorem Safe.preparing {s' : Shared} (hs : Safe h s) (hcap : Captured c s)
    (hroot : s.disk.root = true) (hw : s.disk.pending = none)
    (hd : s'.disk = s.disk.put .pending (some fun _ => none) s.disk.supply)
    (hl : s'.last = s.last) : Preparing c (fun _ => none) s' := by
  have hpub : ∀ i, AtPublic i s := by
    cases hs with
    | settled _ hp _ => exact hp
    | ready a w _ hr =>
      have := hr.pending
      rw [hw] at this
      cases this
  refine ⟨⟨?_, ?_, ?_⟩, ?_, ?_, ?_, ?_, rfl, rfl, by simp⟩
  · rw [hl, hd]; exact hs.numbered.last
  · rw [hd]; exact hs.numbered.packages
  · intro w i g hw' hg
    rw [hd] at hw'
    cases hw'
    cases hg
  · rw [hd]; exact hcap
  · rw [hd]; exact hroot
  · rw [hd]; rfl
  · intro i f hf
    rw [hl] at hf
    rw [hd]
    exact hpub i f hf

/-- `Journal::prepare` among other writers: an error, or a ready transaction. -/
theorem wp_keepingPrepare {k : Journal → Prog β} (herr : ∀ e s', Safe h s' → Q (.error e) s')
    (hk : ∀ a w' s', AtRest c a w' s' → (∀ i, c.changed i = true → w' (.swap i) = some (a i)) →
      wp (careful h) Q Stored (k (c.journal a)) s') (hs : Safe h s) (hcap : Captured c s) :
    wp (careful h) Q Stored (prepare h c >>= k) s := by
  set A : Shared → Prop := fun s => Safe h s ∧ Captured c s with hAdef
  have hA : (careful h).Stable A := stable_safe.and stable_captured
  have hI : ∀ s, A s → Stored s := fun _ hs => hs.1.stored
  have hAe : ∀ e s', A s' → Q (.error e) s' := fun e s' hs' => herr e s' hs'.1
  unfold prepare
  simp only [bind_bind]
  refine wp_keep_bind (readsOnly_configAttest c) hA hI hAe (fun _ s₁ hs₁ => ?_) ⟨hs, hcap⟩
  refine wp_bind (wp_post ?_ (wp_touching hA hI ?_ touching_open hs₁))
  swap
  · intro s s' ht hl hs
    exact ⟨ht.safe hl (fun _ h => h) hs.1, fun i => lt_of_lt_of_le (hs.2 i) ht.supply⟩
  rintro (e | _) s₂ hs₂
  · exact hAe e s₂ hs₂
  have hA₂ : (careful h).Stable fun s => A s ∧ s.disk.root = s₂.disk.root ∧
      s.disk.pending = s₂.disk.pending := by
    refine hA.and ?_
    rintro s s' ⟨i, f, -, rfl⟩ hw
    exact hw
  refine wp_private_bind (readsAt_existsDir _ _) hA₂ (fun _ hs => hI _ hs.1)
    (fun e s hs => hAe e s hs.1) (fun there s₃ hthere hs₃ => ?_) ⟨hs₂, rfl, rfl⟩
  obtain ⟨_, hroot, hsys⟩ := hthere.bind_inv
  have hthere : there = s₂.disk.pending.isSome := sys_inv hsys
  cases hw : s₂.disk.pending with
  | some w =>
    simp only [hthere, hw, Option.isSome_some, if_true]
    exact wp_ret_stable hA hI (fun s hs => hAe _ s hs) hs₃.1
  | none =>
    simp only [hthere, hw, Option.isSome_none, Bool.false_eq_true, if_false, openDir, if_true,
      bind_bind]
    obtain ⟨_, hdir, hok⟩ := hroot.bind_inv
    have hroot : s₂.disk.root = true := by
      have := ensure_inv hok
      rw [sys_inv hdir] at this
      exact this
    refine wp_sys_bind hA₂ (fun _ hs => hI _ hs.1) (fun _ _ _ ht => False.elim ht.1)
      (fun s₄ r s₅ hs₄ hstep => ?_) hs₃
    have hprep : Preparing c (fun _ => none) s₅ ∧ r = true := by
      have hpair := hstep.2.1
      rw [show exec h (.mkdir (.work .pending)) s₄.disk =
        (true, s₄.disk.put .pending (some fun _ => none) s₄.disk.supply) by
          simp [exec, work, hs₄.2.2, hw, put, setWork]] at hpair
      obtain ⟨hr, hd⟩ := Prod.mk.inj hpair
      exact ⟨hs₄.1.1.preparing hs₄.1.2 (hs₄.2.1.trans hroot) (hs₄.2.2.trans hw) hd.symm hstep.2.2,
        hr.symm⟩
    obtain ⟨hs₅, rfl⟩ := hprep
    refine wp_preparing_bind (readsAt_ensure _ _) herr (fun _ s₆ hs₆ => ?_) hs₅
    refine wp_preparing_bind (only_perform (by trivial)) herr (fun _ s₇ hs₇ => ?_) hs₆
    refine wp_preparing_bind (readsAt_ensure _ _) herr (fun _ s₈ hs₈ => ?_) hs₇
    refine wp_preparing_bind (readsAt_attest _) herr (fun _ s₉ hs₉ => ?_) hs₈
    refine wp_preparingWriteNew (by simp) (by simp) rfl herr (fun fo n s₁₀ _ _ hs₁₀ => ?_) hs₉
    refine wp_preparing_bind (readsAt_sync _) herr (fun _ s₁₁ hs₁₁ => ?_) hs₁₀
    refine wp_preparing_bind (readsAt_sync _) herr (fun _ s₁₂ hs₁₂ => ?_) hs₁₁
    refine wp_preparingWriteReceipt (by simp) (by simp) (by simp) herr
      (fun fi s₁₃ hfi hs₁₃ => ?_) hs₁₂
    exact wp_preparingStageBoth ⟨fi, by simp, hfi⟩ (by simp) (by simp) herr hk hs₁₃

end Prepare

/-- The transaction of the candidate `c` with the staged files `a` is ready. -/
def Resting (c : PreparedConfig h) (a : Package → Inode) (s : Shared) : Prop :=
  ∃ w, AtRest c a w s

theorem Resting.safe (hs : Resting c a s) : Safe h s := let ⟨_, hw⟩ := hs; hw.safe

theorem stable_resting : (careful h).Stable (Resting c a) := by
  rintro s s' he ⟨w, hs⟩
  exact ⟨w, stable_atRest s s' he hs⟩

theorem wp_touchingResting {α : Type} {p : Prog α} (hp : p.Only (Call.Touching Scratch))
    (hs : Resting c a s) : wp (careful h) (fun _ s' => Resting c a s') Stored p s := by
  refine wp_touching stable_resting (fun _ hs => hs.safe.stored) ?_ hp hs
  rintro s s' ht hl ⟨w, hn, hr⟩
  obtain ⟨w', hr', -⟩ := ht.ready hl (fun _ h => h) hr
  exact ⟨w', ht.numbered hl (fun i hsw => hsw.ne_swap i rfl) hn, hr'⟩

theorem touching_writeReceipt {E : Entry → Prop} (he : E e) (v : Json) :
    (writeReceipt h .pending e v).Only (Call.Touching E) :=
  (touching (readsAt_ensure _ _) E).bind fun _ => (touching_writeNew he _).bind fun _ =>
    touching (readsAt_sync _) E

theorem touching_renameEntry {E : Entry → Prop} {old new : Entry} (ho : E old) (hn : E new) :
    (renameEntry .pending old new).Only (Call.Touching E) := by
  refine (touching (readsAt_attest _) E).bind fun _ =>
    (touching (readsAt_attest _) E).bind fun _ => touching_call ⟨ho, hn⟩ fun r => ?_
  cases r with
  | done => exact (touching (readsAt_sync _) E).bind fun _ => touching (readsAt_sync _) E
  | targetExists | failed => trivial

theorem Ready.atPublic_of_staged (hr : Ready c a w s) (hc : c.changed i = true)
    (hsw : w (.swap i) = some (a i)) : AtPublic i s := by
  refine (hr.held i).elim id fun hh f hf => ?_
  obtain ⟨g, hg, hl, -⟩ := hh.swap
  rw [hsw] at hg
  cases hg
  exact absurd (hl f hf).ino_eq.symm ((hr.ours i hc).2 i f hf)

theorem Exchanged.publish (he : Exchanged h i w (a i) s s') (hs : AtRest c a w s)
    (hc : c.changed i = true) (hsw : w (.swap i) = some (a i)) :
    AtRest c a (swapped h i w s) s' := by
  refine ⟨he.numbered hs.2.pending hsw hs.1, he.opened hc hs.2.toOpened, fun k => ?_⟩
  by_cases hk : k = i
  · subst hk
    refine .inr ⟨hc, _, update_self .., fun f hf => ?_, .inl ?_⟩
    · rw [he.last] at hf
      exact (hs.2.atPublic_of_staged hc hsw f hf).touch _
    · rw [he.packages_self]
      exact Inode.sameFile_touch _ _
  · exact he.held hk (hs.2.held k)

variable (checkpoint : ℕ → Except String Unit)

/-- One round of `Journal::publish` among other writers. -/
theorem wp_keepingPublishMember (hsw : c.changed i = true → w (.swap i) = some (a i))
    (hs : AtRest c a w s) :
    wp (careful h) (fun r s' => Resting c a s' ∧ (r = .ok () → ∃ w', AtRest c a w' s' ∧
        ∀ k, k ≠ i → w' (.swap k) = w (.swap k))) Stored
      ((c.journal a).publishMember h checkpoint i) s := by
  have hI : ∀ s, AtRest c a w s → Stored s := fun _ hs => hs.safe.stored
  have hread : ∀ {α : Type} {p : Prog α} {f : α → Prog Unit} {s : Shared}, ReadsOnly p →
      (∀ r s', AtRest c a w s' → wp (careful h) (fun r s' => Resting c a s' ∧ (r = .ok () →
        ∃ w', AtRest c a w' s' ∧ ∀ k, k ≠ i → w' (.swap k) = w (.swap k))) Stored (f r) s') →
      AtRest c a w s → wp (careful h) (fun r s' => Resting c a s' ∧ (r = .ok () →
        ∃ w', AtRest c a w' s' ∧ ∀ k, k ≠ i → w' (.swap k) = w (.swap k))) Stored (p >>= f) s :=
    fun hp hk hs => wp_keep_bind hp stable_atRest hI (fun e s hs => ⟨⟨w, hs⟩, by simp⟩) hk hs
  refine hread (readsAt_lift _) (fun _ s₁ hs₁ => ?_) hs
  refine hread (readsOnly_inspect _) (fun _ s₂ hs₂ => ?_) hs₁
  refine hread (readsAt_eachPackage fun _ => readsOnly_recheck _ _ _) (fun _ s₃ hs₃ => ?_) hs₂
  cases hc : c.changed i with
  | false =>
    have hj : (c.journal a).changed i = false := hc
    simp only [hj, Bool.false_eq_true, if_false]
    exact wp_ret_stable stable_atRest hI (fun s hs => ⟨⟨w, hs⟩, fun _ => ⟨w, hs, fun _ _ => rfl⟩⟩) hs₃
  | true =>
    have hj : (c.journal a).changed i = true := hc
    simp only [hj, if_true]
    refine hread (readsAt_readSwap trivial) (fun file s₄ hs₄ => ?_) hs₃
    split
    · exact wp_ret_stable stable_atRest hI (fun s hs => ⟨⟨w, hs⟩, by simp⟩) hs₄
    refine hread (readsAt_lift _) (fun _ s₅ hs₅ => ?_) hs₄
    -- whatever was public is in the swap after the exchange
    set B : Shared → Prop := fun s => ∃ w', AtRest c a w' s ∧ ∀ k, k ≠ i → w' (.swap k) = w (.swap k)
      with hBdef
    have hB : (careful h).Stable B := by
      rintro s s' he ⟨w', hs, hrest⟩
      exact ⟨w', stable_atRest s s' he hs, hrest⟩
    have hresting : ∀ s, B s → Resting c a s := by
      rintro s ⟨w', hs, -⟩
      exact ⟨w', hs⟩
    have hBI : ∀ s, B s → Stored s := fun s hs => (hresting s hs).safe.stored
    have hpending : ∀ s, B s → ∃ w', s.disk.pending = some w' := by
      rintro s ⟨w', hs, -⟩
      exact ⟨w', hs.2.pending⟩
    refine wp_exchange_bind (A := AtRest c a w) (B := B) stable_atRest hB hI hBI
      (fun s hs => hs.2.pending) hpending (hsw hc) ?_ ?_ hs₅
    · intro s s' hs _ he
      exact ⟨_, he.publish hs hc (hsw hc), fun k hk => update_of_ne (by simpa using hk) ..⟩
    intro s₆ hs₆
    refine wp_keep_bind (readsAt_readSwap trivial) hB hBI
      (fun e s hs => ⟨hresting s hs, by simp⟩)
      (fun file s₇ hs₇ => ?_) hs₆
    split
    · -- another writer's commit was displaced: it is noted, and the publication fails
      obtain ⟨w', hw', -⟩ := hs₇
      have hscratch : Scratch .displacedTmp ∧ Scratch .displaced := by simp [Scratch]
      refine wp_bind (wp_post ?_ (wp_touchingResting (touching_writeReceipt hscratch.1 _) ⟨w', hw'⟩))
      rintro (e | _) s₈ hs₈
      · exact ⟨hs₈, by simp⟩
      refine wp_bind (wp_post ?_
        (wp_touchingResting (touching_renameEntry hscratch.1 hscratch.2) hs₈))
      rintro (e | _) s₉ hs₉
      · exact ⟨hs₉, by simp⟩
      · exact wp_ret_stable stable_resting (fun _ hs => hs.safe.stored)
          (fun s hs => ⟨hs, by simp⟩) hs₉
    · exact wp_ret_stable hB hBI (fun s hs => ⟨hresting s hs, fun _ => hs⟩) hs₇

/-- `Journal::publish` among other writers, whatever its checks say. -/
theorem wp_keepingJournalPublish (hsw : ∀ i, c.changed i = true → w (.swap i) = some (a i))
    (hs : AtRest c a w s) :
    wp (careful h) (fun _ s' => Resting c a s') Stored
      ((c.journal a).publish h c checkpoint) s := by
  have hread : ∀ {α : Type} {p : Prog α} {f : α → Prog Unit} {s : Shared} {w : Work}, ReadsOnly p →
      (∀ r s', AtRest c a w s' → wp (careful h) (fun _ s' => Resting c a s') Stored (f r) s') →
      AtRest c a w s → wp (careful h) (fun _ s' => Resting c a s') Stored (p >>= f) s :=
    fun hp hk hs => wp_keep_bind hp stable_atRest (fun _ hs => hs.safe.stored)
      (fun _ _ hs => ⟨_, hs⟩) hk hs
  unfold Journal.publish eachPackage
  refine hread readsOnly_lockSources (fun _ s₁ hs₁ => ?_) hs
  refine hread (readsOnly_configAttest c) (fun _ s₂ hs₂ => ?_) hs₁
  simp only [bind_bind]
  refine wp_bind (wp_post ?_ (wp_keepingPublishMember checkpoint (hsw .cakeAutorate) hs₂))
  rintro (e | _) s₃ ⟨hs₃, hok₃⟩
  · exact hs₃
  obtain ⟨w', hw', hrest⟩ := hok₃ rfl
  have hsw' : c.changed .sqm = true → w' (.swap .sqm) = some (a .sqm) := by
    intro hc
    rw [hrest _ (by simp)]
    exact hsw _ hc
  refine wp_bind (wp_post ?_ (wp_keepingPublishMember checkpoint hsw' hw'))
  rintro (e | _) s₄ ⟨hs₄, hok₄⟩
  · exact hs₄
  obtain ⟨w'', hw'', -⟩ := hok₄ rfl
  refine hread (readsAt_lift _) (fun _ s₅ hs₅ => ?_) hw''
  exact (readsOnly_attestApplied _).wp_keep (careful_reads h _) stable_resting
    (fun _ hs => hs.safe.stored) ⟨w'', hs₅⟩

/-- `Journal::rollback` among other writers. -/
theorem wp_keepingRollback (hs : Resting c a s) :
    EndsSafe h ((c.journal a).rollback h) s := by
  obtain ⟨w, hn, hr⟩ := hs
  have hwp : EndsSafe h ((c.journal a).rollback h >>= fun foreign => .ret (.ok foreign)) s :=
    wp_keepingRollbackWithStatus (fun _ _ => trivial) (fun _ _ hs => hs)
      (fun _ _ hs => wp_safe_ret hs) hn hr
  rw [bind_ret] at hwp
  exact hwp

/-- **Publication among other writers.** -/
theorem wp_keepingPublish (hs : Safe h s) (hcap : Captured c s) :
    wp (careful h) (fun r s' => Safe h s' ∧ ∀ j, r = .ok (some j) → ∃ a, j = c.journal a ∧
      Resting c a s') Stored (publish h c) s := by
  set Q : Except String (Option Journal) → Shared → Prop := fun r s' => Safe h s' ∧
    ∀ j, r = .ok (some j) → ∃ a, j = c.journal a ∧ Resting c a s' with hQ
  have herr : ∀ e s', Safe h s' → Q (.error e) s' := fun e s' hs' => ⟨hs', fun j h => by cases h⟩
  have hkeep : ∀ {α : Type} {p : Prog α} {f : α → Prog (Option Journal)} {s : Shared}, ReadsOnly p →
      (∀ r s', Safe h s' → wp (careful h) Q Stored (f r) s') → Safe h s →
      wp (careful h) Q Stored (p >>= f) s :=
    fun hp hk hs => wp_keep_bind hp stable_safe (fun _ hs => hs.stored) herr hk hs
  have hthrow : ∀ {e : String} {s : Shared}, Safe h s → wp (careful h) Q Stored (.ret (.error e)) s :=
    fun hs => wp_ret_stable stable_safe (fun _ hs => hs.stored) (herr _) hs
  have hnone : ∀ s, Safe h s → wp (careful h) Q Stored (do
      c.attest
      return none) s := fun s hs => hkeep (readsOnly_configAttest c)
    (fun _ s' hs' => wp_ret_stable stable_safe (fun _ hs => hs.stored)
      (fun s hs => ⟨hs, fun j h => by cases h⟩) hs') hs
  have hA : (careful h).Stable fun s => Safe h s ∧ Captured c s := stable_safe.and stable_captured
  refine wp_keep_bind (readsOnly_configAttest c) hA (fun _ hs => hs.1.stored)
    (fun e s hs => herr e s hs.1) (fun _ s₁ hs₁ => ?_) ⟨hs, hcap⟩
  split
  · refine hkeep (readsAt_existsDir _ _) (fun there s₂ hs₂ => ?_) hs₁.1
    cases there with
    | false => exact hnone s₂ hs₂
    | true =>
      refine hkeep (readsAt_openDir _) (fun _ s₃ hs₃ => ?_) hs₂
      refine hkeep (readsAt_existsDir _ _) (fun there s₄ hs₄ => ?_) hs₃
      cases there with
      | false => exact hnone s₄ hs₄
      | true => exact hthrow hs₄
  refine wp_keepingPrepare herr (fun a w s₂ hs₂ hsw => ?_) hs₁.1 hs₁.2
  refine wp_bind (wp_attempt (wp_post ?_ (wp_keepingJournalPublish _ hsw hs₂)))
  rintro (e | _) s₃ hs₃
  · refine wp_bind (wp_attempt (wp_post ?_ (wp_keepingRollback hs₃)))
    rintro (e' | _) s₄ hs₄
    · exact hthrow hs₄
    · exact hthrow hs₄
  · refine wp_ret_stable stable_resting (fun _ hs => hs.safe.stored) (fun s hs => ⟨hs.safe, ?_⟩) hs₃
    intro j hj
    cases hj
    exact ⟨a, rfl, hs⟩

/-- `PublishedConfig::rollback` right after the publication. -/
theorem wp_keepingPublishThenRollback (hs : Safe h s) (hcap : Captured c s) :
    EndsSafe h (publish h c >>= rollbackPublished h c) s := by
  refine wp_bind (wp_post ?_ (wp_keepingPublish hs hcap))
  rintro (e | j) s₁ ⟨hs₁, hok⟩
  · exact hs₁
  cases j with
  | none => exact wp_safe_reads (readsOnly_configAttest c) hs₁
  | some j =>
    obtain ⟨a, rfl, hrest⟩ := hok j rfl
    refine wp_bind (wp_post ?_ (wp_keepingRollback hrest))
    rintro (e | foreign) s₂ hs₂
    · exact hs₂
    · cases foreign <;> exact wp_safe_ret hs₂

end CakeAutorate.UciTransaction
