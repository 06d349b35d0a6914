/-
# Rollback among other writers

A rollback exchanges a swap back only while it sees its own candidate at the public name, but a
writer can commit between that look and the exchange. Then the commit is in the swap and the
restored file is public: `Gap`. The rollback sees it there and exchanges once more, which has a gap
of its own.
-/

import CakeAutorate.UciTransaction.Keeping

namespace CakeAutorate.UciTransaction

open Syscall Syscall.Program Function Nat Disk Version Journal

variable {h : Host} {c : PreparedConfig h} {a : Package → Inode} {w : Work} {s : Shared} {d : Disk}

theorem ensure_inv {ok : Bool} {error : String} (hs : Sees h (.ok ()) (ensure ok error) d) :
    ok = true := by
  cases ok with
  | true => rfl
  | false => cases hs

theorem sys_inv {call : Call} {r : Reply call} (hs : Sees h (.ok r) (sys call) d) :
    r = (exec h call d).1 := by
  have : (Except.ok (exec h call d).1 : Except String (Reply call)) = .ok r := hs.2.2
  exact (Except.ok.inj this).symm

theorem fileIdentity_inv {l : Loc} {f : Inode} {isPrivate : Bool} {i : Identity}
    (hs : Sees h (.ok i) (fileIdentity h l f isPrivate) d) :
    safe h isPrivate f = true ∧ i = Identity.of h f := by
  obtain ⟨named, -, hs⟩ := hs.bind_inv
  cases named with
  | none => cases hs
  | some named =>
    obtain ⟨_, hsafe, hs⟩ := hs.bind_inv
    have hsafe := ensure_inv hsafe
    simp only [Bool.and_eq_true] at hsafe
    refine ⟨hsafe.2, ?_⟩
    cases isPrivate with
    | false =>
      obtain ⟨_, -, hs⟩ := hs.bind_inv
      cases hs
      rfl
    | true =>
      iterate 3 obtain ⟨_, -, hs⟩ := hs.bind_inv
      cases hs
      rfl

theorem regular_inv {l : Loc} {maximum : ℕ} {isPrivate : Bool} {f : Inode}
    (hs : Sees h (.ok f) (regular h l maximum isPrivate) d) :
    d.lookup l = some f ∧ Readable h isPrivate maximum f := by
  obtain ⟨f', hs, hrest⟩ := hs.bind_inv
  obtain ⟨_, -, hrest⟩ := hrest.bind_inv
  obtain ⟨_, -, hrest⟩ := hrest.bind_inv
  cases hrest
  obtain ⟨file, hopen, hs⟩ := hs.bind_inv
  have hl : file = d.lookup l := sys_inv hopen
  rw [← hl]
  cases file with
  | none => cases hs
  | some file =>
    obtain ⟨before, hid, hs⟩ := hs.bind_inv
    obtain ⟨hsafe, rfl⟩ := fileIdentity_inv hid
    obtain ⟨_, hlen, hs⟩ := hs.bind_inv
    obtain ⟨_, -, hs⟩ := hs.bind_inv
    obtain ⟨_, -, hs⟩ := hs.bind_inv
    cases hs
    exact ⟨rfl, hsafe, of_decide_eq_true (ensure_inv hlen)⟩

section

variable (hw : d.pending = some w)
include hw

theorem readSwap_inv {i : Package} {g : Inode} (hs : Sees h (.ok g) (readSwap h i) d) :
    w (.swap i) = some g ∧ Readable h false maxConfig g := by
  obtain ⟨hl, hr⟩ := regular_inv hs
  refine ⟨?_, hr⟩
  simpa [lookup, show d.work .pending = some w from hw] using hl

theorem readReceipt_inv {e : Entry} {v : Json} (hs : Sees h (.ok v) (readReceipt h .pending e) d) :
    ∃ f, w e = some f ∧ parseReceipt h f.bytes = .ok v := by
  obtain ⟨f, hf, hv⟩ := hs.bind_inv
  refine ⟨f, ?_, hv⟩
  have := (regular_inv hf).1
  simpa [lookup, show d.work .pending = some w from hw] using this

theorem inspect_inv {names : List Entry} (hs : Sees h (.ok names) (Root.inspect h .pending) d)
    (i : Package) {g : Inode} (hg : w (.swap i) = some g) : Readable h false maxConfig g := by
  have hwork : d.work .pending = some w := hw
  obtain ⟨_, -, hs⟩ := hs.bind_inv
  obtain ⟨_, -, hs⟩ := hs.bind_inv
  obtain ⟨es, hnames, hs⟩ := hs.bind_inv
  have hes : es = w.names Entry.all := by
    rw [sys_inv hnames]
    simp [exec, hwork]
  obtain ⟨_, heach, -⟩ := hs.bind_inv
  have hmem : Entry.swap i ∈ es := by
    rw [hes]
    exact Directory.mem_names.2 ⟨Entry.mem_all _, g, hg⟩
  clear hes hnames hs
  induction es with
  | nil => cases hmem
  | cons e es ih =>
    obtain ⟨f, hf, hrest⟩ := heach.bind_inv
    rcases List.mem_cons.1 hmem with rfl | hmem
    · obtain ⟨hl, hr⟩ := regular_inv hf
      have : w (.swap i) = some f := by simpa [lookup, hwork] using hl
      rw [hg] at this
      cases this
      exact hr
    · exact ih hrest hmem

theorem load_inv {j : Journal} (hrec : Recorded c a w) (hs : Sees h (.ok j) (load h) d) :
    j = c.journal a := by
  iterate 3 obtain ⟨_, -, hs⟩ := hs.bind_inv
  obtain ⟨intent, hi, hs⟩ := hs.bind_inv
  obtain ⟨ready, hr, hs⟩ := hs.bind_inv
  obtain ⟨fi, hfi, hpi⟩ := readReceipt_inv hw hi
  obtain ⟨fr, hfr, hpr⟩ := readReceipt_inv hw hr
  obtain ⟨fi', hfi', hbi⟩ := hrec.intent
  obtain ⟨fr', hfr', hbr⟩ := hrec.ready
  rw [hfi] at hfi'
  cases hfi'
  rw [hfr] at hfr'
  cases hfr'
  rw [hbi, parseReceipt_intent] at hpi
  cases hpi
  rw [hbr, parseReceipt_readyOf] at hpr
  cases hpr
  have : parse h c.intent (readyOf h a) = .ok j := hs
  rw [parse_journal hrec.staged] at this
  cases this
  rfl

theorem swapToRestore_inv {j : Journal} {i : Package} {v : Version} {foreign : Bool}
    (hs : Sees h (.ok (v, foreign)) (j.swapToRestore h i) d) :
    ∃ g, w (.swap i) = some g ∧ Readable h false maxConfig g ∧ v = ofFile h g := by
  obtain ⟨g, hg, hs⟩ := hs.bind_inv
  obtain ⟨hsw, hread⟩ := readSwap_inv hw hg
  refine ⟨g, hsw, hread, ?_⟩
  obtain ⟨file, -, hs⟩ := hs.bind_inv
  -- whatever the displaced receipt proves, the result is the first read
  have hend : ∀ foreign' : Bool, Sees h (.ok (v, foreign)) (do
      if g.ino == (j.after i).identity.ino && h.dev == (j.after i).identity.dev then
        throw "uci-transaction-recovery-conflict"
      return (ofFile h g, foreign') : Prog (Version × Bool)) d → v = ofFile h g := by
    intro foreign' hs
    split at hs
    · cases hs
    · cases hs
      rfl
  by_cases hm : (j.before i).matchesFile h file true = true
  · simp only [hm, if_true] at hs
    exact hend false hs
  · simp only [hm, Bool.false_eq_true, if_false] at hs
    obtain ⟨proof, -, hs⟩ := hs.bind_inv
    obtain ⟨expected, -, hs⟩ := hs.bind_inv
    obtain ⟨candidate, -, hs⟩ := hs.bind_inv
    split at hs
    · cases hs
    · exact hend true hs

end

theorem ino_eq_of_matchesFile {f g : Inode} {moved : Bool}
    (hm : (ofFile h f).matchesFile h g moved = true) : f.ino = g.ino := by
  by_contra hne
  rw [matchesFile_of_ino_ne hne] at hm
  cases hm

/-- After the exchange that put `g` back for the public file `p`: where the
last commit to package `i` is. -/
inductive GapCase (a : Package → Inode) (g p : Inode) (i : Package) (s : Shared) : Prop where
  | none (hl : s.last i = none)
  | ours (hp : AtPublic i s) (ha : (a i).SameFile p)
  | later (hp : AtPublic i s) (hne : (s.disk.packages i).ino ≠ g.ino)
  | won (hl : ∀ f, s.last i = some f → f.SameFile p) (hp : g.SameFile (s.disk.packages i))

/-- The state between the exchange of a restore and its checks. -/
structure Gap (c : PreparedConfig h) (a : Package → Inode) (w : Work) (g p : Inode) (i : Package)
    (s : Shared) : Prop where
  numbered : Numbered s
  opened : Opened c a w s
  changed : c.changed i = true
  swap : w (.swap i) = some p
  others : ∀ k, k ≠ i → AtPublic k s ∨ Held c a w k s
  before : g.ino < s.disk.supply
  case : GapCase a g p i s

variable {g p : Inode} {i : Package}

theorem GapCase.atPublic (hc : GapCase a g p i s) :
    AtPublic i s ∨ (∀ f, s.last i = some f → f.SameFile p) ∧ g.SameFile (s.disk.packages i) := by
  cases hc with
  | none hl =>
    refine .inl fun f hf => ?_
    rw [hl] at hf
    cases hf
  | ours hp _ => exact .inl hp
  | later hp _ => exact .inl hp
  | won hl hp => exact .inr ⟨hl, hp⟩

theorem stable_gap : (careful h).Stable (Gap c a w g p i) := by
  rintro s s' ⟨k, f, hf, rfl⟩ hs
  refine ⟨hs.numbered.commit hf, hs.opened.commit hf, hs.changed, hs.swap,
    fun k' hk' => held_commit (hs.others k' hk'), lt_succ_of_lt hs.before, ?_⟩
  by_cases hk : i = k
  · subst hk
    refine .later commit_atPublic ?_
    have := hs.before
    simp only [Shared.commit, update_self, hf]
    omega
  · cases hs.case with
    | none hl => exact .none (by rw [commit_last_of_ne hk]; exact hl)
    | ours hp ha => exact .ours hp.commit ha
    | later hp hne => exact .later hp.commit (by rw [commit_packages_of_ne hk]; exact hne)
    | won hl hp =>
      exact .won (by rw [commit_last_of_ne hk]; exact hl)
        (by rw [commit_packages_of_ne hk]; exact hp)

theorem Gap.stored (hs : Gap c a w g p i s) : Stored s := by
  intro k
  by_cases hk : k = i
  · subst hk
    rcases hs.case.atPublic with hp | ⟨hl, -⟩
    · exact .inl hp
    · exact .inr ⟨w, p, hs.opened.pending, hs.swap, hl⟩
  · rcases hs.others k hk with hp | hh
    · exact .inl hp
    · obtain ⟨g', hg', hf, -⟩ := hh.swap
      exact .inr ⟨w, g', hs.opened.pending, hg', hf⟩

theorem Gap.ready (hs : Gap c a w g p i s)
    (hclosed : AtPublic i s ∨ ¬Readable h false maxConfig p) : Ready c a w s where
  toOpened := hs.opened
  held k := by
    by_cases hk : k = i
    · subst hk
      rcases hs.case.atPublic with hp | ⟨hl, -⟩
      · exact .inl hp
      · rcases hclosed with hp | hun
        · exact .inl hp
        · exact .inr ⟨hs.changed, p, hs.swap, hl, .inr hun⟩
    · exact hs.others k hk

theorem Gap.safe (hs : Gap c a w g p i s)
    (hclosed : AtPublic i s ∨ ¬Readable h false maxConfig p) : Safe h s :=
  .ready a w hs.numbered (hs.ready hclosed)

/-- The disk after an exchange, and the commits as before. -/
structure Exchanged (h : Host) (i : Package) (w : Work) (g : Inode) (s s' : Shared) : Prop where
  disk : s'.disk = s.disk.exchanged i w g (h.clock s.disk.supply)
  last : s'.last = s.last

theorem exchange_step {site : Exchange} {r : Renamed} {s' : Shared} (hw : s.disk.pending = some w)
    (hg : w (.swap i) = some g) (hstep : (careful h).step (.exchange i site) s r s') :
    r = .done ∧ Exchanged h i w g s s' := by
  have hexec : exec h (.exchange i site) s.disk =
      (.done, s.disk.exchanged i w g (h.clock s.disk.supply)) := by
    simp [exec, hw, hg, exchanged, tick]
  have hpair := hstep.2.1
  rw [hexec] at hpair
  obtain ⟨hr, hd⟩ := Prod.mk.inj hpair
  exact ⟨hr.symm, hd.symm, hstep.2.2⟩

section Exchanged

variable {s' : Shared}

def swapped (h : Host) (i : Package) (w : Work) (s : Shared) : Work :=
  Function.update w (.swap i) (some ((s.disk.packages i).touch (h.clock s.disk.supply)))

theorem Exchanged.packages_self (he : Exchanged h i w g s s') :
    s'.disk.packages i = g.touch (h.clock s.disk.supply) := by
  rw [he.disk]; simp [exchanged]

variable {k : Package}

section

variable (he : Exchanged h i w g s s')
include he

theorem Exchanged.packages_of_ne (hk : k ≠ i) : s'.disk.packages k = s.disk.packages k := by
  rw [he.disk]; simp [exchanged, hk]

theorem Exchanged.atPublic (hk : k ≠ i) (hp : AtPublic k s) : AtPublic k s' := by
  intro f hf
  rw [he.last] at hf
  rw [he.packages_of_ne hk]
  exact hp f hf

theorem Exchanged.ours {f : Inode} (hf : Ours s f) : Ours s' f := by
  refine ⟨?_, by rw [he.last]; exact hf.2⟩
  rw [he.disk]
  exact lt_succ_of_lt hf.1

theorem Exchanged.numbered (hw : s.disk.pending = some w) (hg : w (.swap i) = some g)
    (hn : Numbered s) : Numbered s' where
  last k f hf := by
    rw [he.last] at hf
    rw [he.disk]
    exact lt_succ_of_lt (hn.last k f hf)
  packages k := by
    by_cases hk : k = i
    · subst hk
      rw [he.packages_self, he.disk]
      exact lt_succ_of_lt (hn.swap w k g hw hg)
    · rw [he.packages_of_ne hk, he.disk]
      exact lt_succ_of_lt (hn.packages k)
  swap w' k f hw' hf := by
    rw [he.disk] at hw' ⊢
    cases hw'
    by_cases hk : k = i
    · subst hk
      rw [update_self] at hf
      cases hf
      exact lt_succ_of_lt (hn.packages k)
    · rw [update_of_ne (by simpa using hk)] at hf
      exact lt_succ_of_lt (hn.swap w k f hw hf)

theorem Exchanged.opened (hc : c.changed i = true) (ho : Opened c a w s) :
    Opened c a (swapped h i w s) s' := by
  have hkeep : ∀ e, (∀ k, e ≠ .swap k) → swapped h i w s e = w e :=
    fun e hne => update_of_ne (hne i) ..
  refine ⟨?_, ?_, ?_, ⟨ho.recorded.staged, ?_, ?_⟩, fun k hk => he.ours (ho.ours k hk), ?_⟩
  · rw [he.disk]; exact ho.root
  · rw [he.disk]; rfl
  · rw [hkeep _ (by simp)]; exact ho.marker
  · rw [hkeep _ (by simp)]; exact ho.recorded.intent
  · rw [hkeep _ (by simp)]; exact ho.recorded.ready
  · intro k hk
    have hne : k ≠ i := by
      rintro rfl
      rw [hc] at hk
      cases hk
    rw [swapped, update_of_ne (by simpa using hne)]
    exact ho.unchanged k hk

theorem Exchanged.held (hk : k ≠ i) (hh : AtPublic k s ∨ Held c a w k s) :
    AtPublic k s' ∨ Held c a (swapped h i w s) k s' := by
  rcases hh with hp | hh
  · exact .inl (he.atPublic hk hp)
  · refine .inr ⟨hh.changed, ?_⟩
    rw [swapped, update_of_ne (by simpa using hk), he.last, he.packages_of_ne hk]
    exact hh.swap

theorem Exchanged.gap (hn : Numbered s) (hr : Ready c a w s) (hc : c.changed i = true)
    (hg : w (.swap i) = some g) (hread : Readable h false maxConfig g) :
    Gap c a (swapped h i w s) g ((s.disk.packages i).touch (h.clock s.disk.supply)) i s' where
  numbered := he.numbered hr.pending hg hn
  opened := he.opened hc hr.toOpened
  changed := hc
  swap := update_self ..
  others k hk := he.held hk (hr.held k)
  before := by
    rw [he.disk]
    exact lt_succ_of_lt (hn.swap w i g hr.pending hg)
  case := by
    rcases hr.held i with hp | hh
    · -- the last commit, if any, was public and is now in the swap
      refine .won ?_ ?_
      · rw [he.last]
        exact fun f hf => (hp f hf).touch _
      · rw [he.packages_self]
        exact Inode.sameFile_touch _ _
    · obtain ⟨g', hg', hl, ha⟩ := hh.swap
      rw [hg] at hg'
      cases hg'
      refine .ours ?_ ((ha.resolve_right (not_not_intro hread)).touch _)
      intro f hf
      rw [he.last] at hf
      rw [he.packages_self]
      exact (hl f hf).touch _

end

end Exchanged

variable {β : Type} {f : Unit → Prog β} {Q : Except String β → Shared → Prop} {K : Package → Prop}

/-- `rename` of a package with its swap, among other writers: `A` before the
exchange, `B` after it. -/
theorem wp_exchange_bind {site : Exchange} {A B : Shared → Prop} (hA : (careful h).Stable A)
    (hB : (careful h).Stable B) (hAI : ∀ s, A s → Stored s) (hBI : ∀ s, B s → Stored s)
    (hAw : ∀ s, A s → s.disk.pending = some w) (hBw : ∀ s, B s → ∃ w', s.disk.pending = some w')
    (hg : w (.swap i) = some g)
    (hstep : ∀ s s', A s → Careful h (.exchange i site) s → Exchanged h i w g s s' → B s')
    (hk : ∀ s, B s → wp (careful h) Q Stored (f ()) s) (hs : A s) :
    wp (careful h) Q Stored (exchangeSwap i site >>= f) s := by
  have hattest : ∀ {s : Shared} {w' : Work}, s.disk.pending = some w' →
      s.disk.hasDir (.work .pending) = true := by
    intro s w' hw'
    simp [hasDir, work, hw']
  unfold exchangeSwap renameBetween
  simp only [bind_bind]
  refine wp_sees_bind (readsAt_attest _) (sees_attest rfl) hA hAI (fun s₁ hs₁ => ?_) hs
  refine wp_sees_bind (readsAt_attest _) (sees_attest (hattest (hAw s₁ hs₁))) hA hAI
    (fun s₂ hs₂ => ?_) hs₁
  refine wp_sys_bind hA hAI (fun _ _ _ ht => False.elim ht.1) (fun s₃ r s₄ hs₃ hst => ?_) hs₂
  obtain ⟨rfl, he⟩ := exchange_step (hAw s₃ hs₃) hg hst
  have hs₄ := hstep s₃ s₄ hs₃ hst.1 he
  simp only [renamed, pure_eq, ret_ok_bind]
  refine wp_sees_bind (readsAt_sync _) (sees_sync rfl) hB hBI (fun s₆ hs₆ => ?_) hs₄
  obtain ⟨w', hw'⟩ := hBw s₆ hs₆
  exact wp_sees_bind (readsAt_sync _) (sees_sync (hattest hw')) hB hBI hk hs₆

/-- The packages of `K` have their last commit at the public name. -/
def PublicOn (K : Package → Prop) (s : Shared) : Prop := ∀ k, K k → AtPublic k s

theorem stable_publicOn (K : Package → Prop) : (careful h).Stable (PublicOn K) :=
  fun s s' he hs k hk => stable_atPublic h k s s' he (hs k hk)

/-- A ready transaction, and the packages of `K` settled. -/
def Going (c : PreparedConfig h) (a : Package → Inode) (w : Work) (K : Package → Prop)
    (s : Shared) : Prop :=
  (Numbered s ∧ Ready c a w s) ∧ PublicOn K s

theorem stable_going : (careful h).Stable (Going c a w K) :=
  (stable_numbered.and stable_ready).and (stable_publicOn K)

theorem Going.safe (hs : Going c a w K s) : Safe h s :=
  .ready a w hs.1.1 hs.1.2

theorem wp_closeGap (hread : Readable h false maxConfig g) (hK : ¬K i)
    (herr : ∀ e s', Safe h s' → Q (.error e) s')
    (hk : ∀ w' s', Going c a w' K s' → AtPublic i s' → (∀ k, k ≠ i → w' (.swap k) = w (.swap k)) →
      wp (careful h) Q Stored (f ()) s') (hs : Gap c a w g p i s ∧ PublicOn K s) :
    wp (careful h) Q Stored ((c.journal a).checkRestored h i (ofFile h g) >>= f) s := by
  set A : Shared → Prop := fun s => Gap c a w g p i s ∧ PublicOn K s with hAdef
  have hA : (careful h).Stable A := stable_gap.and (stable_publicOn K)
  have hI : ∀ s, A s → Stored s := fun _ hs => hs.1.stored
  have hAp : (careful h).Stable fun s => A s ∧ AtPublic i s := hA.and (stable_atPublic h i)
  have hthrow : ∀ {e : String} {s : Shared}, A s → AtPublic i s →
      wp (careful h) Q Stored (.ret (.error e)) s := fun hs hp =>
    wp_ret_stable hAp (fun s hs => hs.1.1.stored) (fun s hs => herr _ s (hs.1.1.safe (.inl hs.2)))
      ⟨hs, hp⟩
  -- what is public and not committed since can be read, and is `g`
  have hcase : ∀ {s : Shared}, A s → AtPublic i s ∨ Readable h false maxConfig (s.disk.packages i) ∧
      (ofFile h g).matchesFile h (s.disk.packages i) true = true := by
    intro s hs
    rcases hs.1.case.atPublic with hp | ⟨-, hp⟩
    · exact .inl hp
    · exact .inr ⟨Inode.SameFile.readable hp hread, matchesFile_of_sameFile hp⟩
  have hlook : ∀ {s : Shared}, A s →
      AtPublic i s ∨ Readable h false maxConfig (s.disk.packages i) := fun hs =>
    (hcase hs).imp id And.left
  unfold checkRestored
  simp only [bind_bind]
  refine wp_publicMatches_bind hA hI hs.1.opened.root (hlook hs)
    (fun e s hs hp => herr e s (hs.1.safe (.inl hp))) (fun b s₁ hs₁ hb => ?_) hs
  cases b with
  | false =>
    refine hthrow hs₁ ?_
    rcases hb with hp | ⟨heq, hb⟩
    · exact hp
    · refine (hcase hs₁).resolve_right fun hno => ?_
      rw [heq, ← hb] at hno
      cases hno.2
  | true =>
    simp only [Bool.not_true, Bool.false_eq_true, if_false, bind_bind]
    by_cases hun : Readable h false maxConfig p
    swap
    · -- the writer's file cannot be read: the directory stays
      refine wp_private_bind (readsAt_readSwap trivial) hA hI
        (fun e s hs => herr e s (hs.1.safe (.inr hun))) (fun file s₂ hfile hs₂ => ?_) hs₁
      obtain ⟨hsw, hfr⟩ := readSwap_inv hs₁.1.opened.pending hfile
      rw [hs₁.1.swap] at hsw
      cases hsw
      exact absurd hfr hun
    have hl : s₁.disk.lookup (.entry .pending (.swap i)) = some p := by
      simp [lookup, show s₁.disk.work .pending = some w from hs₁.1.opened.pending, hs₁.1.swap]
    refine wp_sees_bind (readsAt_readSwap trivial) (sees_regular hl hun) hA hI (fun s₂ hs₂ => ?_) hs₁
    cases hm : ((c.journal a).after i).matchesFile h p true with
    | true =>
      have hp : AtPublic i s₂ := by
        rcases hs₂.1.case.atPublic with hp | ⟨hl, -⟩
        · exact hp
        · intro f' hf'
          refine absurd ?_ ((hs₂.1.opened.ours i hs₂.1.changed).2 i f' hf')
          rw [← (hl f' hf').ino_eq]
          exact (ino_eq_of_matchesFile hm).symm
      exact hk w s₂ ⟨⟨hs₂.1.numbered, hs₂.1.ready (.inl hp)⟩, hs₂.2⟩ hp fun _ _ => rfl
    | false =>
      simp only [Bool.not_false, if_true, bind_bind]
      refine wp_publicMatches_bind hA hI hs₂.1.opened.root (hlook hs₂)
        (fun e s hs hp => herr e s (hs.1.safe (.inl hp))) (fun b s₃ hs₃ hb => ?_) hs₂
      cases b with
      | false =>
        refine hthrow hs₃ ?_
        rcases hb with hp | ⟨heq, hb⟩
        · exact hp
        · refine (hcase hs₃).resolve_right fun hno => ?_
          rw [heq, ← hb] at hno
          cases hno.2
      | true =>
        simp only [Bool.not_true, Bool.false_eq_true, if_false, bind_bind]
        -- the undo brings the writer's commit back
        set B : Shared → Prop := fun s => Safe h s ∧ ∃ w', s.disk.pending = some w' with hBdef
        have hB : (careful h).Stable B := by
          refine stable_safe.and ?_
          rintro s s' ⟨k, f', -, rfl⟩ hw'
          exact hw'
        refine wp_exchange_bind (A := A) (B := B) hA hB hI (fun s hs => hs.1.stored)
          (fun s hs => hs.1.opened.pending) (fun s hs => hs.2) hs₃.1.swap ?_ ?_ hs₃
        · intro s s' hs hcareful he
          have hino : g.ino = (s.disk.packages i).ino := ino_eq_of_matchesFile hcareful
          have hready : Ready c a (swapped h i w s) s' := by
            refine ⟨he.opened hs.1.changed hs.1.opened, fun k => ?_⟩
            by_cases hk : k = i
            · subst hk
              refine .inl fun f' hf' => ?_
              rw [he.last] at hf'
              rw [he.packages_self]
              cases hs.1.case with
              | none hl => rw [hl] at hf'; cases hf'
              | ours _ ha =>
                rw [show ((c.journal a).after k).matchesFile h p true = true from
                  matchesFile_of_sameFile ha] at hm
                cases hm
              | later _ hne => exact absurd hino.symm hne
              | won hl _ => exact (hl f' hf').touch _
            · exact he.held hk (hs.1.others k hk)
          have hn := he.numbered hs.1.opened.pending hs.1.swap hs.1.numbered
          exact ⟨.ready a _ hn hready, _, hready.pending⟩
        · intro s hs
          refine wp_keep_bind (readsOnly_publicMatches _ _ _) hB (fun s hs => hs.1.stored)
            (fun e s hs => herr e s hs.1) (fun b s hs => ?_) hs
          cases b <;> exact wp_ret_stable hB (fun s hs => hs.1.stored)
            (fun s hs => herr _ s hs.1) hs

/-- One round of `Journal::restore_swaps` among other writers: an error with
everything safe, or the package's last commit is public. -/
theorem wp_keepingRestoreMember {restore : Package → Option Version}
    {checkpoint : Package → Prog Unit} (hcp : ReadsOnly (checkpoint i)) (hK : ¬K i)
    (hres : restore i = some (ofFile h g)) (hc : c.changed i = true)
    (hg : w (.swap i) = some g) (hread : Readable h false maxConfig g)
    (herr : ∀ e s', Safe h s' → Q (.error e) s')
    (hk : ∀ w' s', Going c a w' K s' → AtPublic i s' → (∀ k, k ≠ i → w' (.swap k) = w (.swap k)) →
      wp (careful h) Q Stored (f ()) s') (hs : Going c a w K s) :
    wp (careful h) Q Stored ((c.journal a).restoreMember h restore checkpoint i >>= f) s := by
  have hI : ∀ s, Going c a w K s → Stored s := fun _ hs => hs.safe.stored
  have hthrow : ∀ {A : Shared → Prop} {e : String} {s : Shared}, (careful h).Stable A →
      (∀ s, A s → Safe h s) → A s → wp (careful h) Q Stored (.ret (.error e)) s :=
    fun hA hAs hs => wp_ret_stable hA (fun s hs => (hAs s hs).stored)
      (fun s hs => herr _ s (hAs s hs)) hs
  unfold restoreMember
  simp only [hres, bind_bind]
  refine wp_keep_bind (readsOnly_publicMatches _ _ _) stable_going hI (fun e s hs => herr e s hs.safe)
    (fun b s hs => ?_) hs
  cases b with
  | false => exact hthrow stable_going (fun _ hs => hs.safe) hs
  | true =>
    simp only [Bool.not_true, Bool.false_eq_true, if_false, bind_bind]
    refine wp_private_bind (readsAt_readSwap trivial) stable_going hI
      (fun e s hs => herr e s hs.safe) (fun current s₁ hcur hs₁ => ?_) hs
    obtain ⟨hcur, -⟩ := readSwap_inv hs.1.2.pending hcur
    rw [hg] at hcur
    cases hcur
    simp only [bne_self_eq_false, Bool.false_eq_true, if_false, bind_bind]
    refine wp_keep_bind hcp stable_going hI (fun e s hs => herr e s hs.safe) (fun _ s₂ hs₂ => ?_) hs₁
    -- the exchange opens a gap, which the checks after it close
    refine wp_exchange_bind (A := Going c a w K)
      (B := fun s => (∃ w' p, Gap c a w' g p i s ∧ ∀ k, k ≠ i → w' (.swap k) = w (.swap k)) ∧
        PublicOn K s) stable_going ?_ hI ?_ (fun s hs => hs.1.2.pending) ?_ hg ?_ ?_ hs₂
    · refine .and (fun s s' he => ?_) (stable_publicOn K)
      rintro ⟨w', p, hgap, hrest⟩
      exact ⟨w', p, stable_gap s s' he hgap, hrest⟩
    · rintro s ⟨⟨w', p, hgap, -⟩, -⟩
      exact hgap.stored
    · rintro s ⟨⟨w', p, hgap, -⟩, -⟩
      exact ⟨w', hgap.opened.pending⟩
    · intro s s' hs _ he
      refine ⟨⟨_, _, he.gap hs.1.1 hs.1.2 hc hg hread, fun k hk => ?_⟩, fun k hk => ?_⟩
      · exact update_of_ne (by simpa using hk) ..
      · exact he.atPublic (fun heq => hK (heq ▸ hk)) (hs.2 k hk)
    · rintro s₃ ⟨⟨w', p, hgap, hrest⟩, hon⟩
      exact wp_closeGap hread hK herr (fun w'' s' hs' hp' hrest' =>
        hk w'' s' hs' hp' fun k hk => (hrest' k hk).trans (hrest k hk)) ⟨hgap, hon⟩

end CakeAutorate.UciTransaction
