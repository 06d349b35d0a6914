/-
# Where a publication can be interrupted

`Phase` lists every shape in which a crash can leave the disk: no transaction; a preparation that is
not ready; a ready transaction, each changed package exchanged or not; a finished one, marked
`accepted`.  `Inv` adds that a directory in `garbage` may be removed and that inode numbers are not
reused.
-/

import CakeAutorate.UciTransaction.Receipts

namespace CakeAutorate.UciTransaction

open Syscall Syscall.Program Function Disk Identity

variable {h : Host} {f : Inode}

theorem Inode.SameFile.readable {g : Inode} (hfg : f.SameFile g) {isPrivate : Bool} {maximum : ℕ}
    (hf : Readable h isPrivate maximum f) : Readable h isPrivate maximum g := by
  rw [← hfg]
  exact hf

def PreparedConfig.outcome (c : PreparedConfig h) (accepted : Bool) (i : Package) : Bytes :=
  if accepted then c.candidate i else (c.original i).bytes

/-- Both packages have the bytes of the outcome. -/
structure Public (c : PreparedConfig h) (s : Disk) : Prop where
  readable : PublicReadable h s
  bytes : ∀ i, (s.packages i).bytes = c.outcome s.accepted i

/-- A preparation before its ready receipt: nothing was exchanged, and a swap is
there only after the intent. -/
structure Setup (c : PreparedConfig h) (w : Work) : Prop where
  good : Good h w
  ready : w .ready = none
  marker : w .accepted = none
  displaced : w .displaced = none
  displacedTmp : w .displacedTmp = none
  tmp : MarkerPart h (w .acceptedTmp)
  owner : (∀ e, w e = none) ∨ ∃ f, w .owner = some f ∧ f.bytes <+: ownerMark
  intent : ∀ i f, w (.swap i) = some f → ∃ g, w .intent = some g ∧ g.bytes = receiptBytes h c.intent

/-- A package of a ready transaction: unchanged, exchanged, or not. -/
inductive Member (c : PreparedConfig h) (a : Package → Inode) (w : Work) (s : Disk) (i : Package) :
    Prop where
  | same (hc : c.changed i = false) (hp : s.packages i = c.original i)
  | before (g : Inode) (hc : c.changed i = true) (hw : w (.swap i) = some g)
      (hp : (c.original i).SameFile (s.packages i)) (hg : (a i).SameFile g)
  | after (g : Inode) (hc : c.changed i = true) (hw : w (.swap i) = some g)
      (hp : (a i).SameFile (s.packages i)) (hg : (c.original i).SameFile g)

/-- A ready transaction. -/
structure ReadyAt (c : PreparedConfig h) (a : Package → Inode) (w : Work) (s : Disk) : Prop where
  root : s.root = true
  pending : s.pending = some w
  accepted : s.accepted = false
  staged : Staged c a
  good : Good h w
  owner : ∃ f, w .owner = some f ∧ f.bytes = ownerMark
  intent : ∃ f, w .intent = some f ∧ f.bytes = receiptBytes h c.intent
  ready : ∃ f, w .ready = some f ∧ f.bytes = receiptBytes h (readyOf h a)
  marker : w .accepted = none
  tmp : MarkerPart h (w .acceptedTmp)
  member : ∀ i, Member c a w s i

/-- The shapes of the disk. -/
inductive Phase (c : PreparedConfig h) (s : Disk) : Prop where
  | idle (hp : s.pending = none) (hpub : Public c s)
  | setup (w : Work) (hr : s.root = true) (hp : s.pending = some w) (ha : s.accepted = false)
      (hs : Setup c w) (hpub : ∀ i, s.packages i = c.original i)
  | ready (a : Package → Inode) (w : Work) (hr : ReadyAt c a w s)
  | retiring (w : Work) (hr : s.root = true) (hp : s.pending = some w) (hg : Good h w)
      (hm : ∃ f, w .accepted = some f ∧ f.bytes = acceptedMark)
      (ho : ∃ f, w .owner = some f ∧ f.bytes <+: ownerMark) (hpub : Public c s)

/-- What holds between any two system calls of any operation. -/
structure Inv (c : PreparedConfig h) (s : Disk) : Prop where
  supply : ∀ i, (c.original i).ino < s.supply
  garbage : ∀ w, s.garbage = some w → s.root = true ∧ Retired h w
  phase : Phase c s

variable {c : PreparedConfig h} {a : Package → Inode} {w : Work} {s : Disk}

theorem Member.readable {i : Package} (ha : Staged c a) (hm : Member c a w s i) :
    Readable h false maxConfig (s.packages i) := by
  cases hm with
  | same hc hp => rw [hp]; exact c.readable i
  | before g hc hw hp hg => exact Inode.SameFile.readable hp (c.readable i)
  | after g hc hw hp hg => exact Inode.SameFile.readable hp (ha.readable i)

theorem ReadyAt.publicReadable (hr : ReadyAt c a w s) : PublicReadable h s :=
  fun i => (hr.member i).readable hr.staged

theorem Phase.publicReadable (hp : Phase c s) : PublicReadable h s := by
  cases hp with
  | idle hp hpub => exact hpub.readable
  | setup w hr hp ha hs hpub => exact fun i => by rw [hpub]; exact c.readable i
  | ready a w hr => exact hr.publicReadable
  | retiring w hr hp hg hm ho hpub => exact hpub.readable

/-- The workspace, the lock and a finished retirement do not matter to `Inv`. -/
theorem Inv.workspace (hs : Inv c s) {root lock : Bool} {garbage : Option Work}
    (hr : s.root = true → root = true) (hg : ∀ w, garbage = some w → root = true ∧ Retired h w) :
    Inv c { s with root, lock, garbage } := by
  refine ⟨hs.supply, hg, ?_⟩
  cases hs.phase with
  | idle hp hpub => exact .idle hp ⟨hpub.readable, hpub.bytes⟩
  | setup w hr' hp ha hst hpub => exact .setup w (hr hr') hp ha hst hpub
  | ready a w hr' =>
    refine .ready a w { hr' with root := hr hr'.root, member := fun i => ?_ }
    cases hr'.member i with
    | same hc hp => exact .same hc hp
    | before g hc hw hp hg => exact .before g hc hw hp hg
    | after g hc hw hp hg => exact .after g hc hw hp hg
  | retiring w hr' hp hgood hm ho hpub =>
    exact .retiring w (hr hr') hp hgood hm ho ⟨hpub.readable, hpub.bytes⟩

/-- `Root::open` from any shape. -/
theorem wp_open {α : Type} {k : Unit → Prog α} {Q : Except String α → Disk → Prop} (hs : Inv c s)
    (hk : wp (alone h) Q (Inv c) (k ()) { s with root := true, lock := true, garbage := none }) :
    wp (alone h) Q (Inv c) (Root.open h >>= k) s :=
  wp_rootOpen hs.garbage (fun _ _ _ hr hg => hs.workspace hr hg) hk

/-- `PreparedConfig::attest` passes only on the captured files themselves. -/
theorem configAttest (c : PreparedConfig h) (hp : PublicReadable h s) :
    (Sees h (.ok ()) c.attest s ∧ ∀ i, s.packages i = c.original i) ∨
      ∃ e, Sees h (.error e) c.attest s := by
  have hread : ∀ i, Sees h (.ok (s.packages i)) (readFile h (.package i) maxConfig false) s :=
    fun i => sees_readFile rfl (hp i)
  have hone : ∀ i, (Sees h (.ok ()) (do
      let file ← readFile h (.package i) maxConfig false
      ensure (of h file == of h (c.original i) &&
        file.bytes == (c.original i).bytes) "committed-uci-source-changed") s ∧
        s.packages i = c.original i) ∨ Sees h (.error "committed-uci-source-changed") (do
      let file ← readFile h (.package i) maxConfig false
      ensure (of h file == of h (c.original i) &&
        file.bytes == (c.original i).bytes) "committed-uci-source-changed") s := by
    intro i
    cases hb : (of h (s.packages i) == of h (c.original i) &&
        (s.packages i).bytes == (c.original i).bytes) with
    | true =>
      refine .inl ⟨(hread i).bind (sees_ensure hb), ?_⟩
      rw [Bool.and_eq_true, beq_iff_eq, beq_iff_eq] at hb
      exact of_inj hb.1 hb.2
    | false => exact .inr ((hread i).bind (sees_ensure_error hb))
  rcases hone .cakeAutorate with ⟨h₁, h₁'⟩ | h₁
  · rcases hone .sqm with ⟨h₂, h₂'⟩ | h₂
    · exact .inl ⟨(sees_attest rfl).bind (h₁.bind h₂), fun i => by cases i <;> assumption⟩
    · exact .inr ⟨_, (sees_attest rfl).bind (h₁.bind h₂)⟩
  · exact .inr ⟨_, (sees_attest rfl).bind h₁.bind_error⟩

theorem sees_configAttest (c : PreparedConfig h) (hp : ∀ i, s.packages i = c.original i) :
    Sees h (.ok ()) c.attest s := by
  have hread : PublicReadable h s := fun i => by rw [hp]; exact c.readable i
  refine (sees_attest rfl).bind (sees_eachPackage fun i => ?_)
  exact (sees_readFile (s := s) rfl (hread i)).bind (sees_ensure (by simp [hp]))

/-- The disk on which a preparation starts its directory. -/
structure Base (c : PreparedConfig h) (s : Disk) : Prop where
  root : s.root = true
  garbage : s.garbage = none
  accepted : s.accepted = false
  public_eq : ∀ i, s.packages i = c.original i
  supply : ∀ i, (c.original i).ino < s.supply

theorem Base.inv (hb : Base c s) {n : ℕ} (hn : s.supply ≤ n) (hw : Setup c w) :
    Inv c (s.put .pending (some w) n) where
  supply i := lt_of_lt_of_le (hb.supply i) hn
  garbage w' hw' := by
    rw [put_pending_garbage, hb.garbage] at hw'
    cases hw'
  phase := .setup w (by simpa using hb.root) (by simp) (by simpa using hb.accepted) hw
    fun i => by simpa using hb.public_eq i

theorem ownerMark_length : ownerMark.length ≤ maxReceipt := by decide

theorem Fresh.readable {n : ℕ} {bytes : Bytes} (hf : Fresh h n bytes f) {maximum : ℕ}
    (hl : bytes.length ≤ maximum) (isPrivate : Bool) : Readable h isPrivate maximum f :=
  ⟨hf.safe isPrivate, by rw [hf.bytes_eq]; exact hl⟩

theorem setup_empty (c : PreparedConfig h) : Setup c (fun _ => none) where
  good _ _ hf := by cases hf
  ready := rfl
  marker := rfl
  displaced := rfl
  displacedTmp := rfl
  tmp _ hf := by cases hf
  owner := .inl fun _ => rfl
  intent _ _ hf := by cases hf

/-- Adding a file that is neither `ready`, a marker nor a displacement keeps a
preparation one, as long as the owner file is there and the intent precedes the swaps. -/
theorem Setup.update {e : Entry} (hs : Setup c w) (hno : w e = none)
    (hf : Readable h (!e.isSwap) e.maximum f)
    (hkind : e = .owner ∧ f.bytes <+: ownerMark ∨ e = .intent ∨ (∃ i, e = .swap i) ∨ e = .readyTmp)
    (howner : e ≠ .owner → ∃ g, w .owner = some g ∧ g.bytes <+: ownerMark)
    (hintent : ∀ i, e = .swap i → ∃ g, w .intent = some g ∧ g.bytes = receiptBytes h c.intent)
    (hfirst : e = .intent → ∀ i, w (.swap i) = none) : Setup c (update w e (some f)) := by
  have hne : e ≠ .ready ∧ e ≠ .accepted ∧ e ≠ .displaced ∧ e ≠ .displacedTmp ∧ e ≠ .acceptedTmp := by
    rcases hkind with ⟨rfl, _⟩ | rfl | ⟨i, rfl⟩ | rfl <;> simp
  refine ⟨good_update hs.good fun g hg => by cases hg; exact hf, ?_, ?_, ?_, ?_, ?_, .inr ?_, ?_⟩
  · rw [update_of_ne hne.1.symm]; exact hs.ready
  · rw [update_of_ne hne.2.1.symm]; exact hs.marker
  · rw [update_of_ne hne.2.2.1.symm]; exact hs.displaced
  · rw [update_of_ne hne.2.2.2.1.symm]; exact hs.displacedTmp
  · rw [update_of_ne hne.2.2.2.2.symm]; exact hs.tmp
  · by_cases he : e = .owner
    · subst he
      rcases hkind with ⟨_, hb⟩ | h' | ⟨i, h'⟩ | h'
      · exact ⟨f, by simp, hb⟩
      all_goals cases h'
    · obtain ⟨g, hg, hb⟩ := howner he
      exact ⟨g, by rw [update_of_ne (Ne.symm he)]; exact hg, hb⟩
  · intro i g hg
    by_cases he : e = .intent
    · subst he
      rw [update_of_ne (by simp), hfirst rfl i] at hg
      cases hg
    · rw [update_of_ne (Ne.symm he)]
      by_cases hsw : e = .swap i
      · exact hintent i hsw
      · rw [update_of_ne (Ne.symm hsw)] at hg
        exact hs.intent i g hg

theorem mode_eq {m : ℕ} (hm : m &&& 0o170000 = 0o100000) (hlt : m < 0o200000) :
    0o100000 + m % 0o10000 = m := by
  have hq : (m &&& 0o170000) >>> 12 = m / 4096 % 16 := by
    rw [Nat.shiftRight_and_distrib, Nat.shiftRight_eq_div_pow]
    exact Nat.and_two_pow_sub_one_eq_mod (m / 4096) 4
  have : (0o100000 : ℕ) >>> 12 = 8 := rfl
  omega

/-- What staging a package leaves: `f` is what it is to become. -/
structure StagedMember (c : PreparedConfig h) (i : Package) (f : Inode) (w w' : Work) : Prop where
  bytes : f.bytes = c.candidate i
  uid : f.uid = (c.original i).uid
  gid : f.gid = (c.original i).gid
  mode : f.mode = (c.original i).mode
  work : c.changed i = false ∧ f = c.original i ∧ w' = w ∨
    c.changed i = true ∧ f.ino ≠ (c.original i).ino ∧ w' = update w (.swap i) (some f)

theorem Disk.modify_put (s : Disk) (n : ℕ) (e : Entry) (g : Inode → Inode) (hf : w e = some f) :
    ((s.put .pending (some w) n).modify .pending e g).tick =
      s.put .pending (some (update w e (some (g f)))) (n + 1) := by
  simp [modify, put, work, setWork, tick, hf]

theorem wp_stage {α : Type} {k : Version → Prog α} {Q : Except String α → Disk → Prop}
    (hb : Base c s) {n : ℕ} (hn : s.supply ≤ n) (hs : Setup c w)
    (howner : ∃ g, w .owner = some g ∧ g.bytes <+: ownerMark)
    (hintent : ∃ g, w .intent = some g ∧ g.bytes = receiptBytes h c.intent)
    (i : Package) (hno : w (.swap i) = none)
    (hk : ∀ f w' n', n ≤ n' → StagedMember c i f w w' →
      wp (alone h) Q (Inv c) (k (Version.ofFile h f)) (s.put .pending (some w') n')) :
    wp (alone h) Q (Inv c)
      (Journal.stage h c (fun i => Version.ofFile h (c.original i)) c.changed i >>= k)
      (s.put .pending (some w) n) := by
  cases hc : c.changed i with
  | false =>
    simp only [Journal.stage, hc, Bool.not_false, if_true]
    have hsame : (c.original i).bytes = c.candidate i := by
      have := hc
      simp only [PreparedConfig.changed, bne_eq_false_iff_eq] at this
      exact this.symm
    exact hk _ w n le_rfl ⟨hsame, rfl, rfl, rfl, .inl ⟨hc, rfl, rfl⟩⟩
  | true =>
    have hpub : ∀ w n i, (s.put .pending (some w) n).packages i = c.original i := by
      intro w n i
      simpa using hb.public_eq i
    have hswap : ∀ f : Inode, Readable h false maxConfig f →
        Setup c (update w (.swap i) (some f)) := fun f hf =>
      hs.update hno hf (.inr (.inr (.inl ⟨i, rfl⟩))) (fun _ => howner) (fun _ _ => hintent) nofun
    have hread : ∀ (f : Inode), f.uid = h.uid → f.bytes <+: c.candidate i →
        (f.mode = 0o100600 ∨ f.mode = (c.original i).mode) → Readable h false maxConfig f := by
      intro f hu hbytes hmode
      refine ⟨?_, hbytes.length_le.trans (c.candidate_len i)⟩
      rcases hmode with hmode | hmode
      · simp [safe, hu, hmode]
      · have := c.original_safe i
        simp only [safe, Bool.and_eq_true, beq_iff_eq] at this ⊢
        rw [hmode]
        exact ⟨⟨this.1.1, hu⟩, this.2⟩
    have hsafe := c.original_safe i
    simp only [safe, Bool.and_eq_true, beq_iff_eq] at hsafe
    unfold Journal.stage
    simp only [hc, Bool.not_true, Bool.false_eq_true, if_false, bind_bind]
    refine (sees_configAttest c (hpub w n)).wp_bind ?_
    refine (sees_rootAttest (by simpa using hb.root)).wp_bind ?_
    refine wp_writeNew (w := w) (by simp) hno (hb.inv hn hs) ?_ ?_
    · intro part f n' hp hf hn'
      rw [put_supply] at hn'
      exact hb.inv (by omega) (hswap f (hread f hf.uid (by rw [hf.bytes_eq]; exact hp) (.inl hf.mode)))
    intro f n₁ hf hn₁
    rw [put_supply] at hn₁ hf
    have hf₀ : Readable h false maxConfig f :=
      hread f hf.uid (by rw [hf.bytes_eq]) (.inl hf.mode)
    -- `fchown`, then `fchmod`
    set f₁ : Inode := { f with
      uid := (c.original i).uid, gid := (c.original i).gid, ctime := h.clock n₁ } with hf₁
    set f₂ : Inode := { f₁ with
      mode := 0o100000 + (c.original i).mode % 0o10000, ctime := h.clock (n₁ + 1) } with hf₂
    have hchown : exec h (.chown .pending (.swap i) (c.original i).uid (c.original i).gid)
        (s.put .pending (some (update w (.swap i) (some f))) n₁) =
        (true, s.put .pending (some (update w (.swap i) (some f₁))) (n₁ + 1)) := by
      simp only [exec]
      rw [modify_put (f := f) _ _ _ _ (by simp)]
      simp [hf₁]
    have hchmod : exec h (.chmod .pending (.swap i) (0o100000 + (c.original i).mode % 0o10000))
        (s.put .pending (some (update w (.swap i) (some f₁))) (n₁ + 1)) =
        (true, s.put .pending (some (update w (.swap i) (some f₂))) (n₁ + 2)) := by
      simp only [exec]
      rw [modify_put (f := f₁) _ _ _ _ (by simp)]
      simp [hf₂]
    have hmode : f₂.mode = (c.original i).mode := mode_eq hsafe.1.1 (c.original_mode i)
    have hr₁ : Readable h false maxConfig f₁ :=
      hread f₁ hsafe.1.2 (by rw [show f₁.bytes = f.bytes from rfl, hf.bytes_eq]) (.inl hf.mode)
    have hr₂ : Readable h false maxConfig f₂ :=
      hread f₂ hsafe.1.2 (by rw [show f₂.bytes = f.bytes from rfl, hf.bytes_eq]) (.inr hmode)
    refine wp_sys hchown (hb.inv (by omega) (hswap f hf₀)) (fun _ ht => ht.elim) ?_
    simp only [Bool.not_true, Bool.false_eq_true, if_false, bind_bind]
    refine wp_sys hchmod (hb.inv (by omega) (hswap f₁ hr₁)) (fun _ ht => ht.elim) ?_
    simp only [Bool.not_true, Bool.false_eq_true, if_false, bind_bind]
    refine wp_sys rfl (hb.inv (by omega) (hswap f₂ hr₂)) (fun _ ht => ht.elim) ?_
    refine (sees_regular (f := f₂) (by simp [lookup]) hr₂).wp_bind ?_
    have hbytes : f₂.bytes = c.candidate i := hf.bytes_eq
    refine (sees_ensure (by simp [hbytes])).wp_bind ?_
    refine hk f₂ _ (n₁ + 2) (by omega) ⟨hbytes, rfl, rfl, hmode, .inr ⟨hc, ?_, rfl⟩⟩
    have hino : f₂.ino = n := hf.ino
    have := hb.supply i
    omega

end CakeAutorate.UciTransaction
