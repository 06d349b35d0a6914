/-
# How a slot is granted and how it is retired

The specifications of `acquire_recovering` and `retire`, function by function, and from them
that every move of the processes keeps the invariant.
-/

import CakeAutorate.ProbeOwner.Programs

namespace CakeAutorate.ProbeOwner

open Syscall Wire Override List Option

variable {generation : ℕ → Text} {pool : List UInt32} {p : ℕ} {s t : World} {h : Handle}
  {contents bytes : Bytes}

section

variable (hs : Slot p h contents bytes s)
include hs

theorem Slot.record {e : Entry} (he : ∀ c, e ≠ .locked h c) :
    Slot p h contents bytes (s.record e) := by
  refine { hs with logged := ?_ }
  intro c
  rw [← hs.logged c]
  constructor
  · intro hc
    rcases mem_cons.mp hc with heq | hold
    · exact absurd heq.symm (he c)
    · exact hold
  · exact mem_cons_of_mem _

theorem Slot.settle {gid : UInt32} {n : Text} (hrules : s.SettleRules gid n t) :
    Slot p h contents bytes t := by
  obtain ⟨rules, rfl, -, -⟩ := hrules
  exact { hs with }

theorem Slot.put (bytes' : Bytes) : Slot p h contents bytes' (s.put h.gid bytes') :=
  { hs with file := Function.update_self _ _ _ }

theorem Slot.contents_eq : s.contents h.gid = bytes := by
  rw [World.contents, hs.file, getD_some]

theorem safe_leave {α : Type} {Q : Except String α → World → Prop} {r : Except String α}
    (hQ : ∀ u, Closable p h u → Q r u) : SafeFor generation p Q (.ret r) s :=
  safe_ret fun u hrely _ => hQ u (hs.moved hrely).closable

theorem safe_inventory {α : Type} {Q : Except String α → World → Prop} {f : Bool → Prog α}
    (herror : ∀ e u, Slot p h contents bytes u → SafeFor generation p Q (.ret (.error e)) u)
    (hok : ∀ found u, Rely generation p s u → Inv generation u → Slot p h contents bytes u →
      found = decide (0 < u.tasks h.gid) →
      SafeFor generation p Q (f found) (u.record (.inventoried h found true))) :
    SafeFor generation p Q (call (.inventory h) >>= fun r => tried r >>= f) s := by
  refine safe_call fun u hu hinv => ?_
  have hs' := hs.moved hu
  refine ⟨⟨hs'.process, hs'.lock⟩, fun r v _ hstep _ => ?_⟩
  rcases hstep with ⟨e, rfl, rfl⟩ | ⟨found, rfl, hfound, rfl⟩
  · exact herror e v hs'
  · rw [decide_eq_true hs'.lock]
    exact hok found u hu hinv hs' hfound

end

def PassPost (generation : ℕ → Text) (p : ℕ) (h : Handle) (contents : Bytes) :
    Except String Bool → World → Prop
  | .ok true, s => Slot p h contents [] s ∧ NoDebt generation h s ∧ Settled generation h contents s
  | _, s => Closable p h s

theorem debt_of_recovered {text stale : Text} (hinv : Inv generation s)
    (hs : Slot p h contents contents s) (hread : fromUtf8 contents = some text)
    (hstale : text = receipt h.gid stale) (rules : UInt32 → Text → Prop) :
    NoDebt generation h (({ s with rules } : World).record (.recovered h stale 0)) := by
  rintro u hgid ⟨hunsettled, hnot⟩
  refine hnot ⟨hgid, ?_, rfl⟩
  have hfile := hinv.fenced u hunsettled
  rw [hgid, hs.file] at hfile
  have hexact : fromUtf8 (receiptOf generation u) = some (receipt u.gid (generation u.process)) :=
    fromUtf8_utf8 _
  rw [← some.inj hfile, hread, hgid] at hexact
  rw [hstale] at hexact
  exact (receipt_inj (some.inj hexact)).symm

theorem safe_clear (hs : Slot p h contents contents s) (hdebt : NoDebt generation h s)
    (hsettled : Settled generation h contents s) :
    SafeFor generation p (PassPost generation p h contents) (do
      require (← call (.setLen h)) "probe-owner-lease-recovery-failed"
      require (← call (.sync h)) "probe-owner-lease-recovery-failed"
      return true) s := by
  refine safe_call fun t ht hinv => ?_
  have hs₁ := hs.moved ht
  have hdebt₁ := hs.debt ht hdebt
  have hnorules : ∀ n, ¬t.rules h.gid n := by
    intro n hn
    obtain ⟨u, hgid, -, hu⟩ := hinv.rules h.gid n hn
    exact hdebt₁ u hgid hu
  refine ⟨⟨hs₁.process, hs₁.lock, fun hmem => hs₁.lease _ hmem rfl,
    fun u hgid hu => absurd hu (hdebt₁ u hgid), hnorules⟩, fun r u _ hstep _ => ?_⟩
  rcases hstep with ⟨rfl, rfl⟩ | ⟨rfl, rfl⟩
  · exact safe_leave hs₁ fun _ hclosable => hclosable
  · have hs₂ : Slot p h contents [] ((t.put h.gid []).record (.cleared h)) :=
      (hs₁.put []).record fun c hc => by cases hc
    have hdebt₂ : NoDebt generation h ((t.put h.gid []).record (.cleared h)) :=
      fun u hgid hu => hdebt₁ u hgid hu.1
    have hsettled₂ : Settled generation h contents ((t.put h.gid []).record (.cleared h)) := by
      rcases hsettled.moved ht with hempty | ⟨stale, hne, hread, hmem⟩
      · exact .inl hempty
      · exact .inr ⟨stale, hne, hread, mem_cons_of_mem _ hmem⟩
    refine safe_quiet trivial fun v hv _ r _ _ => ?_
    refine safe_require (fun _ => ?_) (fun _ => ?_)
    · exact safe_leave (hs₂.moved hv) fun _ hclosable => hclosable
    · refine safe_ret fun w hw _ => ?_
      have hvw := hv.trans hw
      exact ⟨hs₂.moved hvw, hs₂.debt hvw hdebt₂, hsettled₂.moved hvw⟩

/-- **A receipt is passed** only when its generation was recovered. -/
theorem safe_passReceipt {len : ℕ} (hs : Slot p h contents contents s) :
    SafeFor generation p (PassPost generation p h contents)
      (passReceipt h (generation p) len) s := by
  have hleave : ∀ {bytes u}, Slot p h contents bytes u →
      SafeFor generation p (PassPost generation p h contents) (.ret (.ok false)) u :=
    fun hu => safe_leave hu fun _ hclosable => hclosable
  have hfail : ∀ {bytes u} error, Slot p h contents bytes u →
      SafeFor generation p (PassPost generation p h contents) (.ret (.error error)) u :=
    fun _ hu => safe_leave hu fun _ hclosable => hclosable
  unfold passReceipt
  by_cases hlong : len > 128
  · rw [if_pos hlong]
    exact hleave hs
  rw [if_neg hlong]
  refine safe_quiet trivial fun u hu hinv r _ hread => ?_
  have hs₁ := hs.moved hu
  cases r with
  | none => exact hleave hs₁
  | some text =>
    have htext : fromUtf8 contents = some text := by
      rcases hread.1 with hnone | hsome
      · cases hnone
      · rw [hs₁.contents_eq] at hsome
        exact hsome.symm
    cases hstale : staleReceiptGeneration text h.gid with
    | none =>
      simp only [hstale]
      exact hleave hs₁
    | some stale =>
      simp only [hstale]
      by_cases hown : stale = generation p
      · rw [if_pos hown]
        exact hleave hs₁
      rw [if_neg hown]
      refine safe_inventory hs₁ (fun e v hv => hfail e hv) ?_
      intro found v hv _ hs₂ hfound
      cases found with
      | true => exact hleave (hs₂.record fun c hc => by cases hc)
      | false =>
        have hidle : v.tasks h.gid = 0 := by
          have := of_decide_eq_false hfound.symm
          omega
        have hs₃ : Slot p h contents contents (v.record (.inventoried h false true)) :=
          hs₂.record fun c hc => by cases hc
        refine safe_call fun w hw hinv₂ => ?_
        have hs₄ := hs₃.moved hw
        have hnobody : w.tasks h.gid = 0 := hs₃.idle hw hidle
        refine ⟨⟨hs₄.process, hs₄.lock, hs₄.lease⟩, fun r x _ hstep hinv₃ => ?_⟩
        rcases hstep with ⟨e, rfl, hrules⟩ | ⟨x₁, rfl, hrules, hgone, rfl⟩
        · exact hleave (hs₄.settle hrules)
        · rw [hnobody] at hinv₃ ⊢
          have hs₅ : Slot p h contents contents (x₁.record (.recovered h stale 0)) :=
            (hs₄.settle hrules).record fun c hc => by cases hc
          have hdebt : NoDebt generation h (x₁.record (.recovered h stale 0)) := by
            obtain ⟨rules, rfl, -, -⟩ := hrules
            exact debt_of_recovered hinv₂ hs₄ htext (receipt_of_stale hstale) rules
          have hsettled : Settled generation h contents (x₁.record (.recovered h stale 0)) := by
            refine .inr ⟨stale, ?_, ?_, mem_cons_self⟩
            · rw [hs₅.process]
              exact hown
            · rw [htext, receipt_of_stale hstale]
          exact safe_clear hs₅ hdebt hsettled

/-- A slot whose lease may be granted. -/
structure Ready (generation : ℕ → Text) (p : ℕ) (h : Handle) (s : World) : Prop where
  process : h.process = p
  lock : s.lock h.gid = some h
  lease : ∀ l ∈ s.leases, l.handle ≠ h
  debt : NoDebt generation h s
  file : s.files h.gid = some (receiptOf generation h)
  admitted : Admitted generation s.log h

def SlotPost (generation : ℕ → Text) (p : ℕ) (h : Handle) :
    Except String (Option Handle) → World → Prop
  | .ok (some lease), s => lease = h ∧ Ready generation p h s
  | _, s => Closable p h s

def PublishPost (generation : ℕ → Text) (p : ℕ) (h : Handle) : Except String Handle → World → Prop
  | .ok lease, s => lease = h ∧ Ready generation p h s
  | .error _, s => Closable p h s

theorem Slot.ready (hs : Slot p h contents (receiptOf generation h) s)
    (hdebt : NoDebt generation h s) (hsettled : Settled generation h contents s)
    (habsent : .inventoried h false true ∈ s.log) : Ready generation p h s := by
  refine ⟨hs.process, hs.lock, hs.lease, hdebt, hs.file, ⟨contents, (hs.logged _).mpr rfl⟩, ?_,
    habsent⟩
  intro c hc
  rw [(hs.logged c).mp hc]
  exact hsettled

/-- **A receipt is published** in an empty slot without debt. -/
theorem safe_publish (hs : Slot p h contents [] s) (hdebt : NoDebt generation h s)
    (hsettled : Settled generation h contents s) (habsent : .inventoried h false true ∈ s.log) :
    SafeFor generation p (PublishPost generation p h) (publish h (generation p)) s := by
  have hleave : ∀ {bytes u} error, Slot p h contents bytes u →
      SafeFor generation p (PublishPost generation p h) (.ret (.error error)) u :=
    fun _ hu => safe_leave hu fun _ hclosable => hclosable
  refine safe_quiet trivial fun u hu _ _ _ _ => ?_
  refine safe_require (fun _ => hleave _ (hs.moved hu)) (fun _ => ?_)
  refine safe_call fun v hv _ => ?_
  have huv := hu.trans hv
  have hs₁ := hs.moved huv
  have hdebt₁ := hs.debt huv hdebt
  refine ⟨⟨hs₁.process, hs₁.lock, hdebt₁⟩, fun r w _ hstep _ => ?_⟩
  have hwrite : ∀ bytes, v.write h.gid bytes = v.put h.gid bytes := by
    intro bytes
    rw [World.write, hs₁.contents_eq, drop_nil, append_nil]
  rcases hstep with ⟨rfl, rfl⟩ | ⟨rfl, n, rfl⟩
  · rw [hwrite]
    have hreceipt : utf8 (receipt h.gid (generation p)) = receiptOf generation h := by
      rw [receiptOf, hs.process]
    rw [hreceipt]
    have hs₂ : Slot p h contents (receiptOf generation h) (v.put h.gid (receiptOf generation h)) :=
      hs₁.put _
    have hsettled₁ : Settled generation h contents (v.put h.gid (receiptOf generation h)) :=
      (hsettled.moved huv : Settled generation h contents v)
    -- the entries stay while the receipt is synced and attested
    have hend : ∀ w, Rely generation p (v.put h.gid (receiptOf generation h)) w →
        Ready generation p h w := by
      intro w hw
      exact (hs₂.moved hw).ready (hs₂.debt hw hdebt₁)
        (hsettled₁.moved hw) (hw.log.subset (huv.mem habsent))
    refine safe_quiet trivial fun w hw _ _ _ _ => ?_
    refine safe_require (fun _ => hleave _ (hs₂.moved hw)) (fun _ => ?_)
    refine safe_quiet trivial fun x hx _ r _ _ => ?_
    have hwx := hw.trans hx
    cases r with
    | none => exact hleave _ (hs₂.moved hwx)
    | some m =>
      refine safe_quiet trivial fun y hy _ r _ _ => ?_
      have hwy := hwx.trans hy
      refine safe_tried (fun _ _ => hleave _ (hs₂.moved hwy)) (fun _ _ => ?_)
      exact safe_ret fun z hz _ => ⟨rfl, hend z (hwy.trans hz)⟩
  · rw [hwrite]
    exact hleave _ (hs₁.put _)

theorem Ready.moved (hs : Ready generation p h s) (hrely : Rely generation p s t) :
    Ready generation p h t := by
  have hsame := hrely.slot h hs.process hs.lock
  refine ⟨hs.process, hsame.lock, hsame.lease hs.lease, ?_, hsame.file.trans hs.file, ?_⟩
  · exact fun u hu hunsettled => hs.debt u hu ((hsame.unsettled u hu).mp hunsettled)
  · obtain ⟨c, hc⟩ := hs.admitted.found
    refine ⟨⟨c, hrely.mem hc⟩, ?_, hrely.mem hs.admitted.absent⟩
    intro c' hc'
    rcases hs.admitted.settled c' (hrely.logged h c' hs.process hc') with
      hempty | ⟨stale, hne, hread, hmem⟩
    · exact .inl hempty
    · exact .inr ⟨stale, hne, hread, hrely.mem hmem⟩

theorem Opened.closable (hopened : Opened p h s) (hinv : Inv generation s) : Closable p h s := by
  refine ⟨hopened.process, ?_⟩
  rintro l hl rfl
  exact hopened.unlocked _ (hinv.held l hl)

/-- **An attempt at a slot.** -/
theorem safe_trySlot (hopened : Opened p h s) :
    SafeFor generation p (SlotPost generation p h) (trySlot (generation p) h) s := by
  have hleave : ∀ {contents bytes u} error, Slot p h contents bytes u →
      SafeFor generation p (SlotPost generation p h) (.ret (.error error)) u :=
    fun _ hu => safe_leave hu fun _ hclosable => hclosable
  have hskip : ∀ {contents bytes u}, Slot p h contents bytes u →
      SafeFor generation p (SlotPost generation p h) (.ret (.ok none)) u :=
    fun hu => safe_leave hu fun _ hclosable => hclosable
  -- an empty slot whose receipt, if it had one, is settled
  have hgrant : ∀ {contents u}, Slot p h contents [] u → NoDebt generation h u →
      Settled generation h contents u →
      SafeFor generation p (SlotPost generation p h) (do
        if ← tried (← call (.inventory h)) then return none
        let lease ← publish h (generation p)
        return some lease) u := by
    intro contents u hu hdebt hsettled
    refine safe_inventory hu (fun e v hv => hleave e hv) ?_
    intro found v hv _ hs₁ _
    cases found with
    | true => exact hskip (hs₁.record fun c hc => by cases hc)
    | false =>
      have hs₂ : Slot p h contents [] (v.record (.inventoried h false true)) :=
        hs₁.record fun c hc => by cases hc
      have hdebt₂ : NoDebt generation h (v.record (.inventoried h false true)) :=
        (hu.debt hv hdebt : NoDebt generation h v)
      have hsettled₂ : Settled generation h contents (v.record (.inventoried h false true)) := by
        rcases hsettled.moved hv with hempty | ⟨stale, hne, hread, hmem⟩
        · exact .inl hempty
        · exact .inr ⟨stale, hne, hread, mem_cons_of_mem _ hmem⟩
      refine .bind ?_ ?_ (fun _ => .refl) (safe_publish hs₂ hdebt₂ hsettled₂ mem_cons_self)
      · exact fun e w _ hw => hw
      · rintro lease w _ ⟨rfl, hready⟩
        exact safe_ret fun x hx _ => ⟨rfl, hready.moved hx⟩
  refine safe_call fun u hu hinv => ⟨hopened.moved hu, fun r v _ hstep _ => ?_⟩
  have hopened₁ := hopened.moved hu
  have hclosable := hopened₁.closable hinv
  rcases hstep with ⟨rfl, -, rfl⟩ | ⟨rfl, -, rfl⟩ | ⟨rfl, rfl⟩
  · obtain ⟨c, hc⟩ := ne_none_iff_exists'.mp hopened₁.present
    have hcontents : u.contents h.gid = c := by rw [World.contents, hc, getD_some]
    rw [hcontents]
    have hs : Slot p h c c { u.record (.locked h c) with
        lock := Function.update u.lock h.gid (some h) } := by
      refine ⟨hclosable.process, Function.update_self _ _ _, hclosable.lease, ?_, hc⟩
      intro c'
      constructor
      · intro hmem
        rcases mem_cons.mp hmem with heq | hold
        · exact (Entry.locked.inj heq).2
        · exact absurd hold (hopened₁.unlogged c')
      · rintro rfl
        exact mem_cons_self
    refine safe_quiet trivial fun w hw hinv' r _ hlen => ?_
    have hs₁ := hs.moved hw
    cases r with
    | none => exact hleave _ hs₁
    | some m =>
      refine safe_require (fun _ => hleave _ hs₁) (fun _ => ?_)
      have hlength : m.len = c.length := by
        rw [hlen.1 m rfl, hs₁.contents_eq]
      by_cases hempty : m.len ≠ 0
      · simp only [if_pos hempty]
        refine .bind ?_ ?_ (fun _ => .refl) (safe_passReceipt hs₁)
        · exact fun e x _ hx => hx
        · intro passed x _ hx
          cases passed with
          | false =>
            refine safe_ret fun y hy hinv₂ => ?_
            exact hx.moved hy hinv₂
          | true => exact hgrant hx.1 hx.2.1 hx.2.2
      · simp only [if_neg hempty]
        have hnil : c = [] := eq_nil_of_length_eq_zero (by omega)
        subst hnil
        exact hgrant hs₁ (hinv'.debt_of_empty hs₁.file) (.inl rfl)
  · refine safe_ret fun w hw hinv' => ?_
    exact (hopened₁.moved hw).closable hinv'
  · refine safe_ret fun w hw hinv' => ?_
    exact (hopened₁.moved hw).closable hinv'

end CakeAutorate.ProbeOwner
