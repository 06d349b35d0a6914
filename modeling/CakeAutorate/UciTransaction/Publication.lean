/-
# Preparing and publishing

`Journal::prepare` leaves the idle disk through the preparations of `Setup` to a
ready transaction; `Journal::publish` exchanges the packages of a ready one.
Both stay inside `Inv` at every system call, and end, well or not, in a shape
that `Phase` knows.
-/

import CakeAutorate.UciTransaction.Phase

namespace CakeAutorate.UciTransaction

open Syscall Syscall.Program Disk Function Package Version Journal PreparedConfig

variable {h : Host} {c : PreparedConfig h} {a : Package → Inode} {w : Work} {s : Disk}

/-- A ready transaction with the workspace to itself. -/
structure Journalled (c : PreparedConfig h) (a : Package → Inode) (s : Disk) : Prop where
  supply : ∀ i, (c.original i).ino < s.supply
  garbage : s.garbage = none
  ready : ∃ w, ReadyAt c a w s

theorem Journalled.inv (hs : Journalled c a s) : Inv c s where
  supply := hs.supply
  garbage w hw := by rw [hs.garbage] at hw; cases hw
  phase := let ⟨w, hw⟩ := hs.ready; .ready a w hw

theorem ReadyAt.journalled (hr : ReadyAt c a w s) (hi : Inv c s) (lock : Bool) :
    Journalled c a { s with root := true, lock, garbage := none } where
  supply := hi.supply
  garbage := rfl
  ready := by
    refine ⟨w, { hr with root := rfl, member := fun i => ?_ }⟩
    cases hr.member i with
    | same hc hp => exact .same hc hp
    | before g hc hw hp hg => exact .before g hc hw hp hg
    | after g hc hw hp hg => exact .after g hc hw hp hg

variable {i : Package}

theorem ReadyAt.swap (hr : ReadyAt c a w s) (hc : c.changed i = true) :
    ∃ g, w (.swap i) = some g ∧ Sees h (.ok g) (readSwap h i) s := by
  obtain ⟨g, hg⟩ : ∃ g, w (.swap i) = some g := by
    cases hr.member i with
    | same hc' hp => rw [hc] at hc'; cases hc'
    | before g hc hw hp hg => exact ⟨g, hw⟩
    | after g hc hw hp hg => exact ⟨g, hw⟩
  have hwork : s.work .pending = some w := hr.pending
  exact ⟨g, hg, sees_regular (by simp [lookup, hwork, hg]) (hr.good _ _ hg)⟩

theorem ReadyAt.exchanged (hr : ReadyAt c a w s) {g : Inode} (hc : c.changed i = true)
    (hg : w (.swap i) = some g) (t : Timestamp) :
    ReadyAt c a (update w (.swap i) (some ((s.packages i).touch t))) (s.exchanged i w g t) := by
  have hne : ∀ e, e ≠ Entry.swap i → update w (.swap i) (some ((s.packages i).touch t)) e = w e :=
    fun e he => update_of_ne he ..
  refine ⟨hr.root, rfl, hr.accepted, hr.staged, ?_, ?_, ?_, ?_, ?_, ?_, fun k => ?_⟩
  · refine good_update hr.good fun f hf => ?_
    cases hf
    exact hr.publicReadable i
  · rw [hne _ (by simp)]; exact hr.owner
  · rw [hne _ (by simp)]; exact hr.intent
  · rw [hne _ (by simp)]; exact hr.ready
  · rw [hne _ (by simp)]; exact hr.marker
  · rw [hne _ (by simp)]; exact hr.tmp
  · by_cases hk : k = i
    · subst hk
      have hpub : (s.exchanged k w g t).packages k = g.touch t := by simp [exchanged]
      cases hr.member k with
      | same hc' hp => rw [hc] at hc'; cases hc'
      | before g' hc hw hp hg' =>
        rw [hg] at hw
        cases hw
        exact .after _ hc (by simp) (by rw [hpub]; exact hg'.touch t) (hp.touch t)
      | after g' hc hw hp hg' =>
        rw [hg] at hw
        cases hw
        exact .before _ hc (by simp) (by rw [hpub]; exact hg'.touch t) (hp.touch t)
    · have hpub : (s.exchanged i w g t).packages k = s.packages k := by simp [Disk.exchanged, hk]
      have hsw : update w (.swap i) (some ((s.packages i).touch t)) (.swap k) =
          w (.swap k) := hne _ (by simpa using hk)
      cases hr.member k with
      | same hc hp => exact .same hc (by rw [hpub]; exact hp)
      | before g' hc hw hp hg' =>
        exact .before g' hc (by rw [hsw]; exact hw) (by rw [hpub]; exact hp) hg'
      | after g' hc hw hp hg' =>
        exact .after g' hc (by rw [hsw]; exact hw) (by rw [hpub]; exact hp) hg'

theorem Journalled.exchanged (hs : Journalled c a s) {g : Inode} (hr : ReadyAt c a w s)
    (hc : c.changed i = true) (hg : w (.swap i) = some g) (t : Timestamp) :
    Journalled c a (s.exchanged i w g t) where
  supply k := Nat.lt_succ_of_lt (hs.supply k)
  garbage := hs.garbage
  ready := ⟨_, hr.exchanged hc hg t⟩

/-- The disk once `Root::open` is done, if the captured files are public and
nothing is pending. -/
theorem Inv.base (hi : Inv c s) (hch : ∃ i, c.changed i = true)
    (hpub : ∀ i, s.packages i = c.original i) (hp : s.pending = none) {lock : Bool} :
    Base c { s with root := true, lock, garbage := none } where
  root := rfl
  garbage := rfl
  accepted := by
    obtain ⟨i, hc⟩ := hch
    cases hi.phase with
    | idle _ hpublic =>
      cases ha : s.accepted with
      | false => rfl
      | true =>
        have := hpublic.bytes i
        rw [hpub, ha] at this
        simp only [PreparedConfig.changed, bne_iff_ne] at hc
        exact absurd this.symm hc
    | setup w hr hp' ha hs hpub => exact ha
    | ready a w hr => exact hr.accepted
    | retiring w hr hp' hg hm ho hpub => rw [hp] at hp'; cases hp'
  public_eq := hpub
  supply := hi.supply

theorem StagedMember.readable {f : Inode} {w' : Work} (hf : StagedMember c i f w w') :
    Readable h false maxConfig f := by
  refine ⟨?_, by rw [hf.bytes]; exact c.candidate_len i⟩
  have := c.original_safe i
  simp only [safe] at this ⊢
  rw [hf.mode, hf.uid]
  exact this

theorem StagedMember.rest {f : Inode} {w' : Work} (hf : StagedMember c i f w w') {e : Entry}
    (he : e ≠ .swap i) : w' e = w e := by
  rcases hf.work with ⟨_, _, rfl⟩ | ⟨_, _, rfl⟩
  · rfl
  · exact update_of_ne he ..

theorem StagedMember.setup {f : Inode} {w' : Work} (hf : StagedMember c i f w w') (hs : Setup c w)
    (hno : w (.swap i) = none) (howner : ∃ g, w .owner = some g ∧ g.bytes = ownerMark)
    (hintent : ∃ g, w .intent = some g ∧ g.bytes = receiptBytes h c.intent) : Setup c w' := by
  rcases hf.work with ⟨_, _, rfl⟩ | ⟨_, _, rfl⟩
  · exact hs
  · obtain ⟨g, hg, hb⟩ := howner
    exact hs.update hno hf.readable (.inr (.inr (.inl ⟨i, rfl⟩)))
      (fun _ => ⟨g, hg, by rw [hb]⟩) (fun _ _ => hintent) (by simp)

variable {w₀ w₁ w₂ : Work}

theorem staged_swap {f₀ f₁ : Inode} (h₀ : StagedMember c .cakeAutorate f₀ w₀ w₁)
    (h₁ : StagedMember c .sqm f₁ w₁ w₂) (hc : c.changed i = true) :
    w₂ (.swap i) = some (pick f₀ f₁ i) := by
  cases i with
  | cakeAutorate =>
    rcases h₀.work with ⟨hc', _, _⟩ | ⟨_, _, rfl⟩
    · rw [hc] at hc'; cases hc'
    · rcases h₁.work with ⟨_, _, rfl⟩ | ⟨_, _, rfl⟩ <;> simp
  | sqm =>
    rcases h₁.work with ⟨hc', _, _⟩ | ⟨_, _, rfl⟩
    · rw [hc] at hc'; cases hc'
    · simp

theorem staged_pair {f₀ f₁ : Inode} (h₀ : StagedMember c .cakeAutorate f₀ w₀ w₁)
    (h₁ : StagedMember c .sqm f₁ w₁ w₂) : Staged c (pick f₀ f₁) := by
  constructor
  · rintro (_ | _); exacts [h₀.bytes, h₁.bytes]
  · rintro (_ | _); exacts [h₀.uid, h₁.uid]
  · rintro (_ | _); exacts [h₀.gid, h₁.gid]
  · rintro (_ | _); exacts [h₀.mode, h₁.mode]
  · rintro (_ | _) hc
    exacts [(h₀.work.resolve_right fun h' => by rw [hc] at h'; cases h'.1).2.1,
      (h₁.work.resolve_right fun h' => by rw [hc] at h'; cases h'.1).2.1]
  · rintro (_ | _) hc
    exacts [(h₀.work.resolve_left fun h' => by rw [hc] at h'; cases h'.1).2.1,
      (h₁.work.resolve_left fun h' => by rw [hc] at h'; cases h'.1).2.1]

theorem Base.journalled (hb : Base c s) {f₀ f₁ g : Inode} {n : ℕ} (hn : s.supply ≤ n)
    (hs₂ : Setup c w₂) (howner : ∃ g, w₀ .owner = some g ∧ g.bytes = ownerMark)
    (hintent : ∃ g, w₀ .intent = some g ∧ g.bytes = receiptBytes h c.intent)
    (h₀ : StagedMember c .cakeAutorate f₀ w₀ w₁) (h₁ : StagedMember c .sqm f₁ w₁ w₂)
    (hg : Readable h true maxReceipt g) (hbytes : g.bytes = receiptBytes h (readyOf h (pick f₀ f₁))) :
    Journalled c (pick f₀ f₁)
      (s.put .pending (some (update (update w₂ .readyTmp none) .ready (some g))) n) := by
  set w : Work := update (update w₂ .readyTmp none) .ready (some g) with hw
  have hkeep : ∀ e, (∀ i, e ≠ .swap i) → w₂ e = w₀ e := by
    intro e he
    rw [h₁.rest (he _), h₀.rest (he _)]
  have hrest : ∀ e, e ≠ .ready → e ≠ .readyTmp → w e = w₂ e := by
    intro e he he'
    simp [hw, he, he']
  have hswap : ∀ i, c.changed i = true → w (.swap i) = some (pick f₀ f₁ i) := by
    intro i hc
    rw [hrest _ (by simp) (by simp)]
    exact staged_swap h₀ h₁ hc
  refine ⟨fun i => lt_of_lt_of_le (hb.supply i) hn, by simpa using hb.garbage, w, ?_⟩
  refine ⟨by simpa using hb.root, rfl, by simpa using hb.accepted, staged_pair h₀ h₁, ?_, ?_, ?_,
    ?_, ?_, ?_, ?_⟩
  · refine good_update (good_update hs₂.good (by simp)) fun f hf => ?_
    cases hf
    exact hg
  · rw [hrest _ (by simp) (by simp), hkeep _ (by simp)]; exact howner
  · rw [hrest _ (by simp) (by simp), hkeep _ (by simp)]; exact hintent
  · exact ⟨g, by simp [hw], hbytes⟩
  · rw [hrest _ (by simp) (by simp)]; exact hs₂.marker
  · rw [hrest _ (by simp) (by simp)]; exact hs₂.tmp
  · intro i
    have hpub : (s.put .pending (some w) n).packages i = c.original i := by
      simpa using hb.public_eq i
    cases hc : c.changed i with
    | false => exact .same hc hpub
    | true =>
      exact .before _ hc (hswap i hc) (by rw [hpub]; exact Inode.sameFile_refl _)
        (Inode.sameFile_refl _)

section

variable {α : Type} {k : Journal → Prog α} {Q : Except String α → Disk → Prop}

/-- The second half of `Journal::prepare`: the swaps and the ready receipt. -/
theorem wp_stageBoth (hb : Base c s) {n : ℕ} (hn : s.supply ≤ n) (hs : Setup c w)
    (howner : ∃ g, w .owner = some g ∧ g.bytes = ownerMark)
    (hintent : ∃ g, w .intent = some g ∧ g.bytes = receiptBytes h c.intent)
    (hno : ∀ i, w (.swap i) = none) (hnoTmp : w .readyTmp = none)
    (herr : ∀ e s', Inv c s' → Q (.error e) s')
    (hk : ∀ a s', Journalled c a s' → wp (alone h) Q (Inv c) (k (c.journal a)) s') :
    wp (alone h) Q (Inv c) (stageBoth h c (fun i => ofFile h (c.original i)) c.changed >>= k)
      (s.put .pending (some w) n) := by
  have hpre : ∀ {w' : Work}, (∃ g, w' .owner = some g ∧ g.bytes = ownerMark) →
      ∃ g, w' .owner = some g ∧ g.bytes <+: ownerMark :=
    fun ⟨g, hg, hb⟩ => ⟨g, hg, by rw [hb]⟩
  simp only [stageBoth, bind_bind]
  refine wp_stage hb hn hs (hpre howner) hintent .cakeAutorate (hno _) fun f₀ w₁ n₁ hn₁ h₀ => ?_
  have hs₁ := h₀.setup hs (hno _) howner hintent
  rw [← h₀.rest (e := .owner) (by simp)] at howner
  rw [← h₀.rest (e := .intent) (by simp)] at hintent
  have hno₁ : w₁ (.swap .sqm) = none := by rw [h₀.rest (by simp)]; exact hno _
  refine wp_stage hb (by omega) hs₁ (hpre howner) hintent .sqm hno₁ fun f₁ w₂ n₂ hn₂ h₁ => ?_
  have hs₂ := h₁.setup hs₁ hno₁ howner hintent
  have howner₂ := howner
  rw [← h₁.rest (e := .owner) (by simp)] at howner₂
  have hpub : ∀ i, (s.put .pending (some w₂) n₂).packages i = c.original i := by
    simpa using hb.public_eq
  have hi₂ := hb.inv (n := n₂) (by omega) hs₂
  refine (sees_configAttest c hpub).wp_bind ?_
  refine (sees_rootAttest (by simpa using hb.root)).wp_bind ?_
  -- the ready receipt, written aside
  have hready : readyJson (pick (ofFile h f₀) (ofFile h f₁)) = readyOf h (pick f₀ f₁) := rfl
  have htmp : ∀ (part : Bytes) (f : Inode) (n : ℕ), part.length ≤ maxReceipt → Fresh h n part f →
      Setup c (update w₂ .readyTmp (some f)) := by
    intro part f n hlen hf
    exact hs₂.update (by rw [h₁.rest (by simp), h₀.rest (by simp)]; exact hnoTmp)
      (hf.readable hlen true) (.inr (.inr (.inr rfl))) (fun _ => hpre howner₂) (by simp) (by simp)
  refine wp_writeReceipt (w := w₂) (by simp)
    (by rw [h₁.rest (by simp), h₀.rest (by simp)]; exact hnoTmp) hi₂ (herr _ _ hi₂) ?_ ?_
  · intro part f n' hpart hlen hf hn'
    rw [put_supply] at hn'
    exact hb.inv (by omega) (htmp part f _ hlen hf)
  intro f n₃ hf hlen hn₃
  rw [put_supply] at hn₃ hf
  have hs₃ := htmp _ f _ (by rw [← hf.bytes_eq]; exact hlen) hf
  refine wp_renameEntry (f := f) (w := update w₂ .readyTmp (some f)) (by simp) (by simp)
    (by simpa using hs₂.ready) (hb.inv (by omega) hs₃) ?_
  rw [put_put, put_supply, note_of_ne _ (by simp), update_idem]
  have hj := hb.journalled (n := n₃ + 1) (by omega) hs₂ (by rw [← h₀.rest (by simp)]; exact howner)
    (by rw [← h₀.rest (by simp)]; exact hintent) h₀ h₁ (g := f.touch (h.clock n₃))
    ⟨hf.safe true, hlen⟩ hf.bytes_eq
  have heq : (⟨fun i => ofFile h (c.original i),
      pick (ofFile h f₀) (ofFile h f₁), c.changed⟩ : Journal) =
      c.journal (pick f₀ f₁) := by
    simp only [journal, Journal.mk.injEq, true_and, and_true]
    funext i
    cases i <;> rfl
  have := hk _ _ hj
  rw [← heq] at this
  exact this

/-- `Journal::prepare`: an error, or a ready transaction. -/
theorem wp_prepare (hi : Inv c s) (hch : ∃ i, c.changed i = true)
    (herr : ∀ e s', Inv c s' → Q (.error e) s')
    (hk : ∀ a s', Journalled c a s' → wp (alone h) Q (Inv c) (k (c.journal a)) s') :
    wp (alone h) Q (Inv c) (prepare h c >>= k) s := by
  unfold prepare
  simp only [bind_bind]
  rcases configAttest c hi.phase.publicReadable with ⟨hattest, hpub⟩ | ⟨e, hattest⟩
  swap
  · exact (hattest.bind_error).wp hi (herr e s hi)
  refine hattest.wp_bind ?_
  refine wp_open hi ?_
  set s₀ : Disk := { s with root := true, lock := true, garbage := none } with hs₀
  have hi₀ : Inv c s₀ := hi.workspace (fun _ => rfl) (by simp)
  refine (sees_existsDir rfl).wp_bind ?_
  cases hp : s.pending with
  | some w =>
    have hd : s₀.hasDir (.work .pending) = true := by simp [hasDir, work, hs₀, hp]
    simp only [hd, if_true]
    exact wp_alone_ret hi₀ (herr _ _ hi₀)
  | none =>
    have hd : s₀.hasDir (.work .pending) = false := by simp [hasDir, work, hs₀, hp]
    have hb : Base c s₀ := hi.base hch hpub hp
    have hmkdir : exec h (.mkdir (.work .pending)) s₀ =
        (true, s₀.put .pending (some fun _ => none) s₀.supply) := by
      simp [exec, work, hs₀, hp, put, setWork]
    simp only [hd, Bool.false_eq_true, if_false, openDir, if_true, bind_bind]
    refine wp_sys hmkdir hi₀ (fun _ ht => ht.elim) ((sees_ensure rfl).wp_bind ?_)
    have hi₁ := hb.inv le_rfl (setup_empty c)
    refine wp_sys rfl hi₁ (fun _ ht => ht.elim) ((sees_ensure rfl).wp_bind ?_)
    refine (sees_attest rfl).wp_bind ?_
    -- the owner file
    have hsetup : ∀ (part : Bytes) (f : Inode) (n : ℕ), part <+: ownerMark → Fresh h n part f →
        Setup c (update (fun _ => none) .owner (some f)) := by
      intro part f n hpart hf
      refine (setup_empty c).update rfl (hf.readable (hpart.length_le.trans ownerMark_length) true)
        (.inl ⟨rfl, by rw [hf.bytes_eq]; exact hpart⟩) (by simp) (by simp) (by simp)
    refine wp_writeNew (w := fun _ => none) (by simp) rfl hi₁ ?_ ?_
    · intro part f n hpart hf hn
      exact hb.inv (le_of_lt hn) (hsetup part f _ hpart hf)
    intro fo n₁ hfo hn₁
    rw [put_supply] at hn₁ hfo
    have hs₁ := hsetup _ fo _ List.prefix_rfl hfo
    set w₁ : Work := update (fun _ => none) .owner (some fo) with hw₁
    have hi₂ := hb.inv hn₁.le hs₁
    refine (sees_sync rfl).wp_bind ((sees_sync rfl).wp_bind ?_)
    -- the intent
    have howner₁ : ∃ g, w₁ .owner = some g ∧ g.bytes <+: ownerMark :=
      ⟨fo, by simp [hw₁], by rw [hfo.bytes_eq]⟩
    have hsetup₂ : ∀ (part : Bytes) (f : Inode) (n : ℕ), part.length ≤ maxReceipt →
        Fresh h n part f → Setup c (update w₁ .intent (some f)) := by
      intro part f n hlen hf
      exact hs₁.update (by simp [hw₁]) (hf.readable hlen true) (.inr (.inl rfl)) (fun _ => howner₁)
        (by simp) (by simp [hw₁])
    refine wp_writeReceipt (w := w₁) (by simp) (by simp [hw₁]) hi₂ (herr _ _ hi₂) ?_ ?_
    · intro part f n hpart hlen hf hn
      rw [put_supply] at hn
      exact hb.inv (by omega) (hsetup₂ part f _ hlen hf)
    intro fi n₂ hfi hlen₂ hn₂
    rw [put_supply] at hn₂ hfi
    have hs₂ := hsetup₂ _ fi _ (by rw [← hfi.bytes_eq]; exact hlen₂) hfi
    set w₂ : Work := update w₁ .intent (some fi) with hw₂
    have howner₂ : ∃ g, w₂ .owner = some g ∧ g.bytes = ownerMark :=
      ⟨fo, by simp [hw₂, hw₁], hfo.bytes_eq⟩
    have hintent₂ : ∃ g, w₂ .intent = some g ∧ g.bytes = receiptBytes h c.intent :=
      ⟨fi, by simp [hw₂], hfi.bytes_eq⟩
    exact wp_stageBoth hb (n := n₂) (by omega) hs₂ howner₂ hintent₂ (by simp [hw₂, hw₁])
      (by simp [hw₂, hw₁]) herr hk

end

/-- One round of `Journal::publish`, whatever its checks say. -/
theorem wp_publishMember (hs : Journalled c a s) (checkpoint : ℕ → Except String Unit)
    (i : Package) : wp (alone h) (fun _ s' => Journalled c a s') (Inv c)
      ((c.journal a).publishMember h checkpoint i) s := by
  obtain ⟨w, hr⟩ := hs.ready
  have herr : ∀ e : String, Journalled c a s := fun _ => hs
  refine (readsAt_lift _).wp_bind hs.inv herr fun _ => ?_
  refine (readsOnly_inspect _).wp_bind hs.inv herr fun _ => ?_
  refine (readsAt_eachPackage fun _ => readsOnly_recheck _ _ _).wp_bind hs.inv herr fun _ => ?_
  cases hc : c.changed i with
  | false =>
    simp only [journal, hc, Bool.false_eq_true, if_false]
    exact wp_alone_ret hs.inv hs
  | true =>
    obtain ⟨g, hg, hread⟩ := hr.swap hc
    have hjc : (c.journal a).changed i = true := hc
    simp only [hjc, if_true]
    refine hread.wp_bind ?_
    cases hcand : ((c.journal a).after i).matchesFile h g false with
    | false =>
      exact wp_alone_ret hs.inv hs
    | true =>
      refine (readsAt_lift _).wp_bind hs.inv herr fun _ => ?_
      refine wp_exchangeSwap hr.pending hg hs.inv ?_
      set t := h.clock s.supply
      have hs' := hs.exchanged hr hc hg t
      have hr' := hr.exchanged hc hg t
      -- the candidate was still in the swap, so the original is there now
      have horig : (c.original i).SameFile ((s.packages i).touch t) := by
        cases hr.member i with
        | same hc' hp => rw [hc] at hc'; cases hc'
        | before g' hc hw hp hg' => exact hp.touch t
        | after g' hc hw hp hg' =>
          rw [hg] at hw
          cases hw
          have hino : (a i).ino ≠ g.ino := by
            rw [hg'.ino_eq]; exact hr.staged.ino i hc
          rw [show ((c.journal a).after i).matchesFile h g false = false from
            matchesFile_of_ino_ne hino false] at hcand
          cases hcand
      obtain ⟨g', hg', hread'⟩ := hr'.swap hc
      rw [update_self] at hg'
      cases hg'
      refine hread'.wp_bind ?_
      have hmatch : ((c.journal a).before i).matchesFile h ((s.packages i).touch t) true = true :=
        matchesFile_of_sameFile horig
      simp only [hmatch, Bool.not_true, Bool.false_eq_true, if_false]
      exact wp_alone_ret hs'.inv hs'

/-- `Journal::publish`, whatever its checks say. -/
theorem wp_journalPublish (hs : Journalled c a s) (checkpoint : ℕ → Except String Unit) :
    wp (alone h) (fun _ s' => Journalled c a s') (Inv c)
      ((c.journal a).publish h c checkpoint) s := by
  unfold Journal.publish eachPackage
  refine readsOnly_lockSources.wp_bind hs.inv (fun _ => hs) fun _ => ?_
  refine (readsOnly_configAttest c).wp_bind hs.inv (fun _ => hs) fun _ => ?_
  simp only [bind_bind]
  refine wp_bind (wp_post ?_ (wp_publishMember hs checkpoint .cakeAutorate))
  rintro (e | _) s₁ hs₁
  · exact hs₁
  refine wp_bind (wp_post ?_ (wp_publishMember hs₁ checkpoint .sqm))
  rintro (e | _) s₂ hs₂
  · exact hs₂
  refine (readsAt_lift _).wp_bind hs₂.inv (fun _ => hs₂) fun _ => ?_
  exact (readsOnly_attestApplied _).wp hs₂.inv fun _ => hs₂

end CakeAutorate.UciTransaction
