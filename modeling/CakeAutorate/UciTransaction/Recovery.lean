/-
# Recovery, publication and acceptance from every shape

`recover_checked_with` ends every shape of `Inv`: the directory is retired and
both packages have their original bytes, or both the candidate bytes once an
acceptance has put its marker in place.  `publish`, with the rollback of a
failed publication, and `accept_receipt` keep `Inv` at every system call.
-/

import CakeAutorate.UciTransaction.Rollback

namespace CakeAutorate.UciTransaction

open Syscall Syscall.Program Disk Reads Bool Journal Entry Root

variable {h : Host} {c : PreparedConfig h} {a : Package → Inode} {w : Work} {s : Disk}

/-- What a recovery owes: the invariant, and unless a check of the caller's
refused (`bad`), success, no directory left, and the bytes of the outcome. -/
def Settles {α : Type} (c : PreparedConfig h) (bad : Prop) (accepted : Bool) (r : Except String α)
    (s : Disk) : Prop :=
  Inv c s ∧ (¬bad → (∃ v, r = .ok v) ∧ s.pending = none ∧ s.garbage = none ∧
    s.accepted = accepted ∧ ∀ i, (s.packages i).bytes = c.outcome accepted i)

variable {α : Type} {bad : Prop} {k : Unit → Prog α} {Q : Except String α → Disk → Prop}

theorem Settles.done (bad : Prop) (hi : Inv c s) (hp : s.pending = none) (hg : s.garbage = none)
    (v : α) : Settles c bad s.accepted (.ok v) s := by
  refine ⟨hi, fun _ => ⟨⟨v, rfl⟩, hp, hg, rfl, ?_⟩⟩
  cases hi.phase with
  | idle _ hpub => exact hpub.bytes
  | setup w hr hp' ha hs hpub => rw [hp] at hp'; cases hp'
  | ready a w hr => have := hr.pending; rw [hp] at this; cases this
  | retiring w hr hp' hg hm ho hpub => rw [hp] at hp'; cases hp'

theorem Settles.refused {accepted : Bool} (hi : Inv c s) (hb : bad) (e : String) :
    Settles c bad accepted (.error e : Except String α) s :=
  ⟨hi, fun h => absurd hb h⟩

def Granted (check : RecoveryCheck → Except String Unit) : Prop := ∀ r, check r = .ok ()

variable {check : RecoveryCheck → Except String Unit}

theorem not_granted {r : RecoveryCheck} {e : String} (hr : check r = .error e) : ¬Granted check := by
  intro hg
  rw [hg r] at hr
  cases hr

def Expected (h : Host) (expected : Option (Package → Version)) (s : Disk) : Prop :=
  ∀ versions, expected = some versions → ∀ j, Sees h (.ok j) (load h) s → versions = j.after

theorem wp_check {r : RecoveryCheck} (hi : Inv c s) (herr : ∀ e, ¬Granted check → Q (.error e) s)
    (hk : wp (alone h) Q (Inv c) (k ()) s) :
    wp (alone h) Q (Inv c) (lift (check r) >>= k) s := by
  cases hr : check r with
  | ok u => exact (reads_ret (.ok u) s).wp_bind hk
  | error e => exact wp_alone_ret hi (herr e (not_granted hr))

theorem sees_originalsPublic (hw : s.pending = some w) (hs : Setup c w)
    (hpub : ∀ i, s.packages i = c.original i) {i : Package} {f : Inode}
    (hf : w (.swap i) = some f) : Sees h (.ok ()) (originalsPublic h) s := by
  obtain ⟨g, hg, hb⟩ := hs.intent i f hf
  have hl : s.lookup (.entry .pending .intent) = some g := by
    simp [lookup, show s.work .pending = some w from hw, hg]
  have hread : PublicReadable h s := fun i => by rw [hpub]; exact c.readable i
  refine (sees_readReceipt hl (hs.good _ _ hg) (by rw [hb]; exact parseReceipt_intent c)).bind ?_
  refine .bind (a := (c.entry .cakeAutorate, c.entry .sqm)) (pairOf_entries c) ?_
  refine sees_eachPackage fun k => ?_
  have hpick : Package.pick (c.entry .cakeAutorate) (c.entry .sqm) k = c.entry k := by
    cases k <;> rfl
  have hbefore : (c.entry k).get "before" = (Version.ofFile h (c.original k)).json := rfl
  have hname : ((c.entry k).get "name").asStr = some k.name := rfl
  have hself : (Version.ofFile h (c.original k)).matchesFile h (s.packages k) false = true := by
    rw [hpub]; exact matchesFile_self _ _
  simp only [hpick, hbefore, hname]
  refine bind (a := Version.ofFile h (c.original k)) (parse_json (c.readable k)) ?_
  refine (sees_package hread k).bind ?_
  simp only [hself, bne_self_eq_false, Bool.not_true, Bool.or_self, Bool.false_eq_true, if_false]
  exact reads_ret _ _

theorem Setup.marking (hs : Setup c w) (howner : ∃ f, w .owner = some f ∧ f.bytes <+: ownerMark)
    {t : Option Inode} (ht : MarkerPart h t) : Setup c (Function.update w .acceptedTmp t) := by
  have hne : ∀ e, e ≠ acceptedTmp → Function.update w .acceptedTmp t e = w e :=
    fun e he => Function.update_of_ne he ..
  refine ⟨good_update hs.good fun f hf => (ht f hf).1, ?_, ?_, ?_, ?_, ?_, .inr ?_, ?_⟩
  · rw [hne _ (by simp)]; exact hs.ready
  · rw [hne _ (by simp)]; exact hs.marker
  · rw [hne _ (by simp)]; exact hs.displaced
  · rw [hne _ (by simp)]; exact hs.displacedTmp
  · simpa using ht
  · rw [hne _ (by simp)]; exact howner
  · intro i f hf
    exact hs.intent i f hf

theorem wp_retireDone (hi : Inv c s) (hr : s.root = true) (hw : s.pending = some w)
    (hgarbage : s.garbage = none) (hg : Good h w)
    (hm : ∃ f, w .accepted = some f ∧ f.bytes = acceptedMark) (hpub : Public c s)
    (hk : ∀ s', Inv c s' → s'.pending = none → s'.garbage = none → s'.packages = s.packages →
      s'.accepted = s.accepted → wp (alone h) Q (Inv c) (k ()) s') :
    wp (alone h) Q (Inv c) (retire h >>= k) s := by
  have hwork : s.work .pending = some w := hw
  have hd : s.hasDir (.work .pending) = true := by simp [hasDir, hwork]
  have hthere : (s.lookup (.entry .pending .accepted)).isSome = true := by
    obtain ⟨f, hf, -⟩ := hm
    simp [lookup, hwork, hf]
  have hidle : ∀ garbage, (∀ w', garbage = some w' → Retired h w') →
      Inv c { s with pending := none, garbage } := by
    intro garbage hret
    exact ⟨hi.supply, fun w' hw' => ⟨hr, hret w' hw'⟩, .idle rfl (hpub.congr rfl rfl)⟩
  have hnone : ({ s with pending := none } : Disk) = { s with pending := none, garbage := none } := by
    rw [← hgarbage]
  have hend := wp_retireMarked (k := k) (Q := Q) hr hw hgarbage hg hm hi
    (fun w' hret => hidle (some w') fun _ h' => by cases h'; exact hret) (by
      rw [hnone]
      exact hk _ (hidle none (by simp)) rfl rfl rfl rfl)
  unfold retire markAccepted
  simp only [bind_bind] at hend ⊢
  refine (sees_inspect hr hwork hg).wp_bind ((sees_existsEntry hd).wp_bind ?_)
  simp only [hthere, Bool.not_true, Bool.false_eq_true, if_false]
  exact hend

theorem wp_retireSetup (hb : Base c s) (hw : s.pending = some w) (hs : Setup c w)
    (hacc : s.accepting = false) (howner : ∃ f, w .owner = some f ∧ f.bytes <+: ownerMark)
    (hk : ∀ s', Inv c s' → s'.pending = none → s'.garbage = none → s'.accepted = s.accepted →
      wp (alone h) Q (Inv c) (k ()) s') : wp (alone h) Q (Inv c) (retire h >>= k) s := by
  have hnote : s.note .accepted = s := s.note_of_not_accepting hacc
  have hself : s.put .pending (some w) s.supply = s := by
    cases s; subst hw; rfl
  have hi : Inv c s := hself ▸ hb.inv le_rfl hs
  have hpub : Public c s := by
    refine ⟨fun i => by rw [hb.public_eq]; exact c.readable i, fun i => ?_⟩
    rw [hb.accepted, hb.public_eq]
    rfl
  refine wp_retireInv hi hb.root hw hb.garbage hs.good hs.tmp ?_ (fun _ => hnote) howner
    (by rw [hnote]; exact hpub) ?_ ?_
  · intro f hf
    rw [hs.marker] at hf
    cases hf
  · intro t n ht hn _
    exact hb.inv hn (hs.marking howner ht)
  · intro s' hi' hp' hg' _ ha'
    exact hk s' hi' hp' hg' (by rw [ha', hnote])

theorem Setup.owner_of_names (hs : Setup c w) (hne : (w.names all).isEmpty = false) :
    ∃ f, w .owner = some f ∧ f.bytes <+: ownerMark := by
  refine hs.owner.resolve_left fun hnone => ?_
  rw [names_eq_nil.2 hnone] at hne
  cases hne

variable {receipt : Package → Version}

/-- The checks once both packages are restored pass, or one of the caller's refused. -/
theorem sees_restored (hsees : Sees h (.ok ()) (attestReceipt h receipt) s)
    (hbad : ¬Granted check → bad) :
    let checks : Prog Unit := do
      lift (check (.absent 6))
      attestReceipt h receipt
      lift (check (.restored receipt))
      attestReceipt h receipt
    Sees h (.ok ()) checks s ∨ bad ∧ ∃ e, Sees h (.error e) checks s := by
  cases h₁ : check (.absent 6) with
  | error e => exact .inr ⟨hbad (not_granted h₁), e, bind_error rfl⟩
  | ok _ =>
    cases h₂ : check (.restored receipt) with
    | error e =>
      refine .inr ⟨hbad (not_granted h₂), e, bind (a := ()) rfl ?_⟩
      exact hsees.bind (bind_error rfl)
    | ok _ =>
      refine .inl (bind (a := ()) rfl ?_)
      exact hsees.bind (bind (a := ()) rfl hsees)

/-- The end of a recovery, after the rollback. -/
theorem wp_recovered (hrb : RolledBack c s) (hsees : Sees h (.ok ()) (attestReceipt h receipt) s)
    (hbad : ¬Granted check → bad) :
    wp (alone h) (Settles c bad false) (Inv c) (do
      attestReceipt h receipt
      lift (check (.absent 7))
      attestReceipt h receipt
      return some receipt) s := by
  refine hsees.wp_bind (wp_check hrb.inv (fun e hg => .refused hrb.inv (hbad hg) e) ?_)
  refine hsees.wp_bind ?_
  have := Settles.done bad hrb.inv hrb.pending hrb.garbage (some receipt)
  rw [hrb.accepted] at this
  exact wp_alone_ret hrb.inv this

theorem names_nonempty {e : Entry} {f : Inode} (hf : w e = some f) :
    (w.names all).isEmpty = false := by
  rw [eq_false_iff, Ne, List.isEmpty_iff, names_eq_nil]
  intro hnone
  rw [hnone] at hf
  cases hf

section

variable {expected : Option (Package → Version)} (hs : Journalled c a s) (hacc : s.accepting = false)
  (hbad : ¬Granted check → bad)
include hs hacc hbad

/-- The end of a recovery in the mode `Refuse`, from a ready transaction. -/
theorem wp_recoverRefuse :
    wp (alone h) (Settles c bad false) (Inv c) (recoverRefuse h (c.journal a) check) s := by
  obtain ⟨w, hr⟩ := hs.ready
  have hattest : ∀ s' : Disk, PublicReadable h s' → (∀ i, (c.original i).SameFile (s'.packages i)) →
      Sees h (.ok ()) (attestReceipt h (c.journal a).before) s' := fun s' hread hp =>
    sees_attestReceipt hread fun i => matchesFile_of_sameFile (hp i)
  obtain ⟨views, hviews⟩ := sees_recoveryViews hr
  refine hviews.wp_bind ?_
  refine wp_check hs.inv (fun e hg => .refused hs.inv (hbad hg) e) ?_
  refine wp_rollbackWithStatus hs hacc bad
    (x := fun i => check (.absent (4 + Package.pick 0 1 i))) (fun _ => rfl)
    (fun i e he => hbad (not_granted he)) ?_ (fun e s' hb hs' => .refused hs'.inv hb e) ?_
  · intro s' hs' hp'
    obtain ⟨w', hr'⟩ := hs'.ready
    exact sees_restored (hattest s' hr'.publicReadable hp') hbad
  · intro s' hrb
    exact wp_recovered hrb (hattest s' hrb.inv.phase.publicReadable hrb.original) hbad

/-- The end of a recovery in the mode `Keep`, from a ready transaction. -/
theorem wp_recoverKeep :
    wp (alone h) (Settles c bad false) (Inv c) (recoverKeep h (c.journal a) check) s := by
  obtain ⟨w, hr⟩ := hs.ready
  obtain ⟨views, hviews⟩ := sees_recoveryViewsKeepingLater hr
  refine hviews.wp_bind ?_
  refine wp_check hs.inv (fun e hg => .refused hs.inv (hbad hg) e) ?_
  refine wp_rollbackKeepingLater hs hacc bad
    (x := fun i => check (.absent (4 + Package.pick 0 1 i))) (fun _ _ => rfl)
    (fun i e he => hbad (not_granted he)) ?_ (fun e s' hb hs' => .refused hs'.inv hb e) ?_
  · intro s' receipt hs' hm'
    obtain ⟨w', hr'⟩ := hs'.ready
    exact sees_restored (sees_attestReceipt hr'.publicReadable hm') hbad
  · intro s' receipt hrb hm'
    exact wp_recovered hrb (sees_attestReceipt hrb.inv.phase.publicReadable hm') hbad

theorem wp_recoverLater (later : LaterCommits) :
    wp (alone h) (Settles c bad false) (Inv c) (match later with
      | .keep => recoverKeep h (c.journal a) check
      | .refuse => recoverRefuse h (c.journal a) check) s := by
  cases later with
  | keep => exact wp_recoverKeep hs hacc hbad
  | refuse => exact wp_recoverRefuse hs hacc hbad

variable (later : LaterCommits)
  (hexp : ∀ versions, expected = some versions → versions ≠ (c.journal a).after → bad)
include hexp

theorem wp_recoverReady :
    wp (alone h) (Settles c bad false) (Inv c) (recoverReady h expected later check) s := by
  obtain ⟨w, hr⟩ := hs.ready
  have hrest := wp_recoverLater hs hacc hbad later
  refine (sees_load hr).wp_bind ?_
  cases expected with
  | none => exact hrest
  | some versions =>
    cases hv : (versions .cakeAutorate == (c.journal a).after .cakeAutorate &&
        versions .sqm == (c.journal a).after .sqm) with
    | true => exact (sees_ensure hv).wp_bind hrest
    | false =>
      have hne : versions ≠ (c.journal a).after := by
        rintro rfl
        simp at hv
      exact (bind_error (sees_ensure_error hv)).wp hs.inv
        (.refused hs.inv (hexp versions rfl hne) _)

theorem wp_recoverPendingReady :
    wp (alone h) (Settles c bad false) (Inv c) (recoverPending h expected later check) s := by
  obtain ⟨w, hr⟩ := hs.ready
  have hwork : s.work .pending = some w := hr.pending
  have hd : s.hasDir (.work .pending) = true := by simp [hasDir, hwork]
  obtain ⟨fo, hfo, hown⟩ := hr.owner
  obtain ⟨fr, hfr, -⟩ := hr.ready
  refine (sees_openDir hd).wp_bind ((sees_inspect hr.root hwork hr.good).wp_bind ?_)
  simp only [names_nonempty hfo, false_eq_true, if_false]
  refine (sees_regular (f := fo) (by simp [lookup, hwork, hfo]) (hr.good _ _ hfo)).wp_bind ?_
  refine (sees_ensure (by simp [hown])).wp_bind ?_
  refine (sees_existsEntry hd).wp_bind ?_
  have hmark : (s.lookup (.entry .pending .accepted)).isSome = false := by
    simp [lookup, hwork, hr.marker]
  simp only [hmark, false_eq_true, if_false]
  refine (sees_existsEntry hd).wp_bind ?_
  have hready : (s.lookup (.entry .pending .ready)).isSome = true := by
    simp [lookup, hwork, hfr]
  simp only [hready, Bool.not_true, Bool.false_eq_true, if_false]
  exact wp_recoverReady hs hacc hbad later hexp

end

variable {expected : Option (Package → Version)}

theorem wp_recoverSetup (hb : Base c s) (hw : s.pending = some w) (hs : Setup c w)
    (hacc : s.accepting = false) (later : LaterCommits) (hbad : ¬Granted check → bad) :
    wp (alone h) (Settles c bad s.accepted) (Inv c) (recoverPending h expected later check) s := by
  have hself : s.put .pending (some w) s.supply = s := by
    cases s; subst hw; rfl
  have hi : Inv c s := hself ▸ hb.inv le_rfl hs
  have hwork : s.work .pending = some w := hw
  have hd : s.hasDir (.work .pending) = true := by simp [hasDir, hwork]
  have hl : ∀ e, s.lookup (.entry .pending e) = w e := by
    intro e
    simp [lookup, hwork]
  refine (sees_openDir hd).wp_bind ((sees_inspect hb.root hwork hs.good).wp_bind ?_)
  cases hne : (w.names all).isEmpty with
  | true =>
    have hempty : w = fun _ => none :=
      funext (names_eq_nil.1 (List.isEmpty_iff.1 hne))
    have hrmdir : exec h (.rmdir .pending) s = (true, s.put .pending none s.supply) := by
      simp [exec, hwork, List.isEmpty_iff.1 hne, put, setWork]
    refine wp_check hi (fun e hg => .refused hi (hbad hg) e) ?_
    refine wp_sys hrmdir hi (fun _ ht => ht.elim) ((sees_ensure rfl).wp_bind ?_)
    refine (sees_sync (by simpa [hasDir] using hb.root)).wp_bind ?_
    have hpub : Public c (s.put .pending none s.supply) := by
      refine ⟨fun i => ?_, fun i => ?_⟩
      · rw [put_packages, hb.public_eq]; exact c.readable i
      · rw [put_packages, put_accepted, hb.public_eq, hb.accepted]; rfl
    have hi' : Inv c (s.put .pending none s.supply) := by
      refine ⟨hb.supply, fun w' hw' => ?_, .idle rfl hpub⟩
      rw [put_pending_garbage, hb.garbage] at hw'
      cases hw'
    have := Settles.done bad hi' rfl hb.garbage (none : Option (Package → Version))
    exact wp_alone_ret hi' (by simpa using this)
  | false =>
    obtain ⟨f, hf, hprefix⟩ := hs.owner_of_names hne
    refine (sees_regular (by rw [hl]; exact hf) (hs.good _ _ hf)).wp_bind ?_
    refine (sees_ensure (by simpa using hprefix)).wp_bind ?_
    refine (sees_existsEntry hd).wp_bind ?_
    simp only [hl, hs.marker, Option.isSome_none, false_eq_true, if_false]
    refine (sees_existsEntry hd).wp_bind ?_
    simp only [hl, hs.ready, Option.isSome_none, Bool.not_false, if_true]
    refine (sees_existsEntry hd).wp_bind ((sees_existsEntry hd).wp_bind ?_)
    simp only [hl, hs.displaced, hs.displacedTmp, Option.isSome_none, Bool.or_self,
      false_eq_true, if_false]
    -- the retirement, after the look at the public files
    have hend : wp (alone h) (Settles c bad s.accepted) (Inv c) (do
        lift (check (.absent 3))
        retire h
        return (none : Option (Package → Version))) s := by
      refine wp_check hi (fun e hg => .refused hi (hbad hg) e) ?_
      refine wp_retireSetup hb hw hs hacc ⟨f, hf, hprefix⟩ fun s' hi' hp' hg' ha' => ?_
      have := Settles.done bad hi' hp' hg' (none : Option (Package → Version))
      rw [ha'] at this
      exact wp_alone_ret hi' this
    by_cases hlook : (decide (later = .refuse) && ((w.names all).contains (.swap .cakeAutorate)
        || (w.names all).contains (.swap .sqm))) = true
    · obtain ⟨i, g, hg⟩ : ∃ i g, w (.swap i) = some g := by
        simp only [and_eq_true, or_eq_true, List.contains_iff_mem, Directory.mem_names] at hlook
        rcases hlook.2 with ⟨-, g, hg⟩ | ⟨-, g, hg⟩
        exacts [⟨_, g, hg⟩, ⟨_, g, hg⟩]
      simp only [hlook, if_true]
      exact (sees_originalsPublic hw hs hb.public_eq hg).wp_bind hend
    · simp only [hlook, false_eq_true, if_false]
      exact hend

theorem wp_recoverRetiring (hi : Inv c s) (hr : s.root = true) (hw : s.pending = some w)
    (hgarbage : s.garbage = none) (hg : Good h w)
    (hm : ∃ f, w .accepted = some f ∧ f.bytes = acceptedMark)
    (ho : ∃ f, w .owner = some f ∧ f.bytes <+: ownerMark) (hpub : Public c s)
    (later : LaterCommits) (hbad : ¬Granted check → bad) :
    wp (alone h) (Settles c bad s.accepted) (Inv c) (recoverPending h expected later check) s := by
  have hwork : s.work .pending = some w := hw
  have hd : s.hasDir (.work .pending) = true := by simp [hasDir, hwork]
  obtain ⟨f, hf, hmark⟩ := hm
  obtain ⟨fo, hfo, hprefix⟩ := ho
  refine (sees_openDir hd).wp_bind ((sees_inspect hr hwork hg).wp_bind ?_)
  simp only [names_nonempty hf, false_eq_true, if_false]
  refine (sees_regular (f := fo) (by simp [lookup, hwork, hfo]) (hg _ _ hfo)).wp_bind ?_
  refine (sees_ensure (by simpa using hprefix)).wp_bind ?_
  refine (sees_existsEntry hd).wp_bind ?_
  have : (s.lookup (.entry .pending .accepted)).isSome = true := by simp [lookup, hwork, hf]
  simp only [this, if_true]
  refine wp_check hi (fun e hg => .refused hi (hbad hg) e) ?_
  refine wp_retireDone hi hr hw hgarbage hg ⟨f, hf, hmark⟩ hpub fun s' hi' hp' hg' hpk' ha' => ?_
  have := Settles.done bad hi' hp' hg' (none : Option (Package → Version))
  rw [ha'] at this
  exact wp_alone_ret hi' this

def Refused (h : Host) (expected : Option (Package → Version))
    (check : RecoveryCheck → Except String Unit) (s : Disk) : Prop :=
  ¬(Granted check ∧ Expected h expected s)

/-- **Recovery.**  From every shape of the disk and in both modes it keeps the
invariant at every call, and unless the caller's receipt or checks refuse, it
succeeds and settles the transaction. -/
theorem wp_recover (hi : Inv c s) (hacc : s.accepting = false)
    (expected : Option (Package → Version)) (later : LaterCommits)
    (check : RecoveryCheck → Except String Unit) :
    wp (alone h) (Settles c (Refused h expected check s) s.accepted) (Inv c)
      (recoverCheckedWith h expected later check) s := by
  set bad := Refused h expected check s with hbaddef
  have hbad : ¬Granted check → bad := fun hg hall => hg hall.1
  refine wp_check hi (fun e hg => .refused hi (hbad hg) e) ?_
  refine (sees_openDir rfl).wp_bind ((sees_existsDir rfl).wp_bind ?_)
  cases hroot : s.root with
  | false =>
    have hgarbage : s.garbage = none := by
      cases hg : s.garbage with
      | none => rfl
      | some w => rw [(hi.garbage w hg).1] at hroot; cases hroot
    have hp : s.pending = none := by
      cases hi.phase with
      | idle hp hpub => exact hp
      | setup w hr hp ha hs hpub => rw [hr] at hroot; cases hroot
      | ready a w hr => rw [hr.root] at hroot; cases hroot
      | retiring w hr hp hg hm ho hpub => rw [hr] at hroot; cases hroot
    simp only [hasDir, hroot, Bool.not_false, if_true]
    exact wp_alone_ret hi (.done _ hi hp hgarbage none)
  | true =>
    simp only [hasDir, hroot, Bool.not_true, Bool.false_eq_true, if_false]
    refine wp_open hi ?_
    set s₀ : Disk := { s with root := true, lock := true, garbage := none } with hs₀
    have hi₀ : Inv c s₀ := hi.workspace (fun _ => rfl) (by simp)
    refine (sees_existsDir (e := .work .pending) rfl).wp_bind ?_
    cases hi.phase with
    | idle hp hpub =>
      have hd : s₀.hasDir (.work .pending) = false := by simp [hasDir, work, hs₀, hp]
      simp only [hd, Bool.not_false, if_true]
      exact wp_alone_ret hi₀ (.done _ hi₀ hp rfl none)
    | setup w hr hp ha hs hpub =>
      have hd : s₀.hasDir (.work .pending) = true := by simp [hasDir, work, hs₀, hp]
      have hb : Base c s₀ := ⟨rfl, rfl, ha, hpub, hi.supply⟩
      simp only [hd, Bool.not_true, Bool.false_eq_true, if_false]
      exact wp_recoverSetup hb hp hs hacc later hbad
    | ready a w hr =>
      have hd : s₀.hasDir (.work .pending) = true := by
        simp [hasDir, work, hs₀, hr.pending]
      simp only [hd, Bool.not_true, Bool.false_eq_true, if_false]
      have hs := hr.journalled hi true
      rw [hr.accepted]
      refine wp_recoverPendingReady hs hacc hbad later fun versions hv hne hall => ?_
      exact hne (hall.2 versions hv _ (sees_load hr))
    | retiring w hr hp hg hm ho hpub =>
      have hd : s₀.hasDir (.work .pending) = true := by simp [hasDir, work, hs₀, hp]
      simp only [hd, Bool.not_true, Bool.false_eq_true, if_false]
      exact wp_recoverRetiring hi₀ rfl hp rfl hg hm ho (hpub.congr rfl rfl) later hbad

@[simp] theorem Disk.setWork_accepting (s : Disk) (p : Place) (w : Option Work) :
    (s.setWork p w).accepting = s.accepting := by cases p <;> rfl

@[simp] theorem Disk.modify_accepting (s : Disk) (p : Place) (e : Entry) (g : Inode → Inode) :
    (s.modify p e g).accepting = s.accepting := by
  unfold modify
  repeat' split
  all_goals simp

theorem exec_accepting (call : Call) (s : Disk) : (exec h call s).2.accepting = s.accepting := by
  cases call with
  | mkdir d =>
    cases d <;> simp only [exec]
    split <;> simp
  | _ =>
    simp only [exec]
    repeat' split
    all_goals simp [tick, note]

theorem wp_accepting {p : Prog α} {I : Disk → Prop} (hp : wp (alone h) Q I p s) :
    wp (alone h) (fun r s' => Q r s' ∧ s'.accepting = s.accepting) I p s := by
  refine wp_frame (J := fun s' => s'.accepting = s.accepting) (fun _ _ he => False.elim he) ?_ rfl hp
  intro call s₁ r s₂ hstep hs₁
  have := exec_accepting (h := h) call s₁
  rw [show exec h call s₁ = (r, s₂) from hstep] at this
  exact this.trans hs₁

/-- `publish` keeps the invariant, and its journal is that of a ready transaction. -/
theorem wp_publish (hi : Inv c s) (hacc : s.accepting = false) :
    wp (alone h) (fun r s' => Inv c s' ∧
      ∀ j, r = .ok (some j) → ∃ a, j = c.journal a ∧ Journalled c a s') (Inv c) (publish h c) s := by
  have herr : ∀ (e : String) (s' : Disk), Inv c s' → Inv c s' ∧
      ∀ j, (.error e : Except String (Option Journal)) = .ok (some j) →
        ∃ a, j = c.journal a ∧ Journalled c a s' := fun e s' hi' => ⟨hi', by simp⟩
  refine (readsOnly_configAttest c).wp_bind hi (fun e => herr e s hi) fun _ => ?_
  by_cases hsame : (c.candidate .cakeAutorate == (c.original .cakeAutorate).bytes &&
      c.candidate .sqm == (c.original .sqm).bytes) = true
  · have hend : wp (alone h) (fun r s' => Inv c s' ∧
        ∀ j, r = .ok (some j) → ∃ a, j = c.journal a ∧ Journalled c a s') (Inv c) (do
          c.attest
          return none) s :=
      (readsOnly_configAttest c).wp_bind hi (fun e => herr e s hi) fun _ =>
        wp_alone_ret hi ⟨hi, by simp⟩
    simp only [hsame, if_true]
    refine (readsAt_existsDir _ _).wp_bind hi (fun e => herr e s hi) fun found => ?_
    cases found with
    | false => exact hend
    | true =>
      refine (readsAt_openDir _).wp_bind hi (fun e => herr e s hi) fun _ => ?_
      refine (readsAt_existsDir _ _).wp_bind hi (fun e => herr e s hi) fun pending => ?_
      cases pending with
      | false => exact hend
      | true => exact wp_alone_ret hi (herr _ s hi)
  · have hch : ∃ i, c.changed i = true := by
      simp only [and_eq_true, beq_iff_eq, not_and_or] at hsame
      rcases hsame with hne | hne
      · exact ⟨.cakeAutorate, by simpa [PreparedConfig.changed] using hne⟩
      · exact ⟨.sqm, by simpa [PreparedConfig.changed] using hne⟩
    simp only [hsame, false_eq_true, if_false]
    have hprepare : wp (alone h) (fun r s' => Inv c s' ∧
        ∀ j, r = .ok j → ∃ a, j = c.journal a ∧ Journalled c a s') (Inv c) (prepare h c) s := by
      rw [← bind_ret (prepare h c)]
      refine wp_prepare hi hch (fun e s' hi' => ⟨hi', by simp⟩) fun a s' hs' => ?_
      refine wp_alone_ret hs'.inv ⟨hs'.inv, fun j hj => ⟨a, ?_, hs'⟩⟩
      cases hj
      rfl
    refine wp_bind (wp_post ?_ (wp_accepting hprepare))
    rintro (e | j) s₁ ⟨⟨hi₁, hj⟩, hacc₁⟩
    · exact herr e s₁ hi₁
    obtain ⟨a, rfl, hs₁⟩ := hj j rfl
    refine wp_bind (wp_attempt (wp_post ?_ (wp_accepting (wp_journalPublish hs₁ _))))
    rintro (e | _) s₂ ⟨hs₂, hacc₂⟩
    · -- a failed publication is rolled back at once
      have hacc' : s₂.accepting = false := by rw [hacc₂, hacc₁, hacc]
      refine wp_bind (wp_attempt ?_)
      rw [← bind_ret (rollback h (c.journal a))]
      refine wp_rollback hs₂ hacc' fun s₃ hrb => ?_
      exact wp_alone_ret hrb.inv (wp_alone_ret hrb.inv (herr _ s₃ hrb.inv))
    · refine wp_alone_ret hs₂.inv ⟨hs₂.inv, fun j hj => ⟨a, ?_, hs₂⟩⟩
      cases hj
      rfl

/-- `publish`, then `PublishedConfig::rollback`. -/
theorem wp_publishThenRollback (hi : Inv c s) (hacc : s.accepting = false) :
    wp (alone h) (fun _ s' => Inv c s') (Inv c) (publish h c >>= rollbackPublished h c) s := by
  refine wp_bind (wp_post ?_ (wp_accepting (wp_publish hi hacc)))
  rintro (e | j) s₁ ⟨⟨hi₁, hj⟩, hacc₁⟩
  · exact hi₁
  cases j with
  | none => exact (readsOnly_configAttest c).wp hi₁ fun _ => hi₁
  | some j =>
    obtain ⟨a, rfl, hs₁⟩ := hj j rfl
    refine wp_rollback hs₁ (hacc₁.trans hacc) fun s₂ hrb => ?_
    exact wp_alone_ret hrb.inv hrb.inv

theorem ReadyAt.attestApplied (hr : ReadyAt c a w s) :
    (∀ i, (s.packages i).bytes = c.candidate i) ∨
      ∃ e, Sees h (.error e) ((c.journal a).attestApplied h) s := by
  have hinspect := sees_inspect (h := h) (p := .pending) hr.root hr.pending hr.good
  -- a package that is not exchanged does not match its published version
  have hone : ∀ i, (s.packages i).bytes = c.candidate i ∨
      ∃ e, Sees h (.error e) ((c.journal a).attestAppliedMember h i) s := by
    intro i
    cases hr.member i with
    | same hc hp =>
      left
      rw [hp, ← hr.staged.unchanged i hc]
      exact hr.staged.bytes i
    | before g hc hw hp hg =>
      have hno : ((c.journal a).after i).matchesFile h (s.packages i) ((c.journal a).changed i) =
          false := matchesFile_of_ino_ne (original_ne hr.staged hc (Inode.sameFile_refl _) hp) _
      refine .inr ⟨"uci-transaction-published-source-changed",
        (sees_publicMatches hr.root hr.publicReadable i _ _).bind ?_⟩
      rw [hno]
      exact reads_ret _ _
    | after g hc hw hp hg => exact .inl (hp.bytes_eq.trans (hr.staged.bytes i))
  rcases hone .cakeAutorate with h₀ | ⟨e, h₀⟩
  · rcases hone .sqm with h₁ | ⟨e, h₁⟩
    · exact .inl fun i => by cases i <;> assumption
    · obtain ⟨e', he'⟩ := (readsOnly_attestAppliedMember (c.journal a) .cakeAutorate).sees_error
        fun _ => ⟨e, h₁⟩
      exact .inr ⟨e', hinspect.bind he'⟩
  · exact .inr ⟨e, hinspect.bind h₀.bind_error⟩

theorem sees_load_error (hw : s.pending = some w) (hready : w .ready = none) :
    ∃ e, Sees h (.error e) (load h) s := by
  have hl : s.lookup (.entry .pending .ready) = none := by
    simp [lookup, show s.work .pending = some w from hw, hready]
  refine (readsOnly_inspect _).sees_error fun _ => ?_
  refine (readsOnly_regular _ _ _).sees_error fun _ => ?_
  refine (readsAt_ensure _ _).sees_error fun _ => ?_
  refine (readsOnly_readReceipt _ _).sees_error fun _ => ⟨"committed-uci-io", bind_error ?_⟩
  refine .bind_error (bind_error ⟨rfl, fun _ ht => ht, ?_⟩)
  simp only [exec, hl]
  exact reads_ret _ _

/-- `accept_receipt`, the end. -/
def acceptEnd (h : Host) (expected : Package → Version) (attestRuntime : ℕ → Except String Unit)
    (n : ℕ) : Prog Unit := do
  attestReceipt h expected
  lift (attestRuntime n)
  attestReceipt h expected

variable {attestRuntime : ℕ → Except String Unit}

theorem wp_acceptEnd {expected : Package → Version} {n : ℕ} (hi : Inv c s) :
    wp (alone h) (fun _ s' => Inv c s') (Inv c) (acceptEnd h expected attestRuntime n) s := by
  refine (readsOnly_attestReceipt _).wp_bind hi (fun _ => hi) fun _ => ?_
  refine (readsAt_lift _).wp_bind hi (fun _ => hi) fun _ => ?_
  exact (readsOnly_attestReceipt _).wp hi fun _ => hi

theorem wp_acceptReady (hs : Journalled c a s) (hacc : s.accepting = true)
    {expected : Package → Version} :
    wp (alone h) (fun _ s' => Inv c s') (Inv c) (do
      let j ← load h
      ensure (expected .cakeAutorate == j.after .cakeAutorate && expected .sqm == j.after .sqm)
        "uci-transaction-acceptance-receipt-mismatch"
      attestApplied h j
      attestReceipt h expected
      lift (attestRuntime 1)
      attestApplied h j
      retire h
      attestReceipt h expected
      lift (attestRuntime 2)
      attestReceipt h expected) s := by
  obtain ⟨w, hr⟩ := hs.ready
  have hi := hs.inv
  refine (sees_load hr).wp_bind ?_
  refine (readsAt_ensure _ _).wp_bind hi (fun _ => hi) fun _ => ?_
  rcases hr.attestApplied with hbytes | ⟨e, he⟩
  swap
  · exact he.bind_error.wp hi hi
  refine (readsOnly_attestApplied _).wp_bind hi (fun _ => hi) fun _ => ?_
  refine (readsOnly_attestReceipt _).wp_bind hi (fun _ => hi) fun _ => ?_
  refine (readsAt_lift _).wp_bind hi (fun _ => hi) fun _ => ?_
  refine (readsOnly_attestApplied _).wp_bind hi (fun _ => hi) fun _ => ?_
  have hpub : Public c (s.note .accepted) := by
    refine ⟨hr.publicReadable, fun i => ?_⟩
    rw [show (s.note .accepted).accepted = true by simp [note, hacc]]
    exact hbytes i
  refine wp_retireInv hi hr.root hr.pending hs.garbage hr.good hr.tmp ?_ ?_ ?_ hpub ?_ ?_
  · intro f hf
    rw [hr.marker] at hf
    cases hf
  · intro hsome
    rw [hr.marker] at hsome
    cases hsome
  · obtain ⟨f, hf, hb⟩ := hr.owner
    exact ⟨f, hf, by rw [hb]⟩
  · intro t n ht hn _
    exact (hs.marking hr ht hn).inv
  · intro s' hi' _ _ _ _
    exact wp_acceptEnd hi'

/-- `accept_receipt` keeps the invariant. -/
theorem wp_accept (hi : Inv c s) (hacc : s.accepting = true) (expected : Package → Version)
    (attestRuntime : ℕ → Except String Unit) :
    wp (alone h) (fun _ s' => Inv c s') (Inv c) (acceptReceipt h expected attestRuntime) s := by
  refine (readsOnly_attestReceipt _).wp_bind hi (fun _ => hi) fun _ => ?_
  refine (readsAt_lift _).wp_bind hi (fun _ => hi) fun _ => ?_
  refine (readsAt_openDir _).wp_bind hi (fun _ => hi) fun _ => ?_
  refine (readsAt_existsDir _ _).wp_bind hi (fun _ => hi) fun found => ?_
  cases found with
  | false => exact wp_acceptEnd hi
  | true =>
    refine wp_open hi ?_
    set s₀ : Disk := { s with root := true, lock := true, garbage := none } with hs₀
    have hi₀ : Inv c s₀ := hi.workspace (fun _ => rfl) (by simp)
    refine (sees_existsDir (e := .work .pending) rfl).wp_bind ?_
    cases hp : s.pending with
    | none =>
      have hd : s₀.hasDir (.work .pending) = false := by simp [hasDir, work, hs₀, hp]
      simp only [hd, Bool.not_false, if_true]
      exact wp_acceptEnd hi₀
    | some w =>
      have hd : s₀.hasDir (.work .pending) = true := by simp [hasDir, work, hs₀, hp]
      simp only [hd, Bool.not_true, Bool.false_eq_true, if_false]
      refine (sees_openDir hd).wp_bind ?_
      cases hi.phase with
      | idle hp' _ => rw [hp] at hp'; cases hp'
      | setup w' hr hp' ha hs hpub =>
        obtain ⟨e, he⟩ := sees_load_error (h := h) (s := s₀) hp' hs.ready
        exact he.bind_error.wp hi₀ hi₀
      | ready a w' hr => exact wp_acceptReady (hr.journalled hi true) hacc
      | retiring w' hr hp' hg hm ho hpub =>
        refine readsOnly_load.wp_bind hi₀ (fun _ => hi₀) fun j => ?_
        refine (readsAt_ensure _ _).wp_bind hi₀ (fun _ => hi₀) fun _ => ?_
        refine (readsOnly_attestApplied _).wp_bind hi₀ (fun _ => hi₀) fun _ => ?_
        refine (readsOnly_attestReceipt _).wp_bind hi₀ (fun _ => hi₀) fun _ => ?_
        refine (readsAt_lift _).wp_bind hi₀ (fun _ => hi₀) fun _ => ?_
        refine (readsOnly_attestApplied _).wp_bind hi₀ (fun _ => hi₀) fun _ => ?_
        refine wp_retireDone hi₀ rfl hp' rfl hg hm (hpub.congr rfl rfl) ?_
        intro s' hi' _ _ _ _
        exact wp_acceptEnd hi'

end CakeAutorate.UciTransaction
