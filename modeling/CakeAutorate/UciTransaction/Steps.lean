/-
# The steps of the publication on a quiet disk

With nobody else at work, the guarded reads of the transaction see the disk as
it is (`Sees`), and each guarded write has one effect and a few crash states.
-/

import CakeAutorate.UciTransaction.Reading
import Mathlib.Data.List.Nodup
import Mathlib.Tactic.Convert

namespace CakeAutorate.UciTransaction

open Syscall Syscall.Program Disk Function Option Root Entry Directory

abbrev alone (h : Host) : System Disk Call Reply := .alone (exec h) (torn h)

/-- The program only reads, and ends with `r`. -/
abbrev Sees {α : Type} (h : Host) (r : Except String α) (p : Prog α) (s : Disk) : Prop :=
  Reads (exec h) (torn h) r p s

variable {h : Host} {s : Disk} {α : Type} {p : Place} {Q : Except String α → Disk → Prop}
  {I : Disk → Prop} {f : Inode} {d : Dir} {e : Entry} {isPrivate : Bool} {w : Work}
  {k : Unit → Prog α}

theorem ReadsAt.sees {p : Prog α} (hp : ReadsOnly p) (h : Host) (s : Disk) : ∃ r, Sees h r p s :=
  hp.reads fun _ hc => ⟨hc.exec_eq h s, hc.not_torn h s⟩

theorem ReadsAt.wp {p : Prog α} (hp : ReadsOnly p) (hI : I s) (hQ : ∀ r, Q r s) :
    wp (alone h) Q I p s := by
  obtain ⟨r, hr⟩ := hp.sees h s
  exact hr.wp hI (hQ r)

theorem ReadsAt.wp_bind {β : Type} {p : Prog α} {f : α → Prog β} {Q : Except String β → Disk → Prop}
    (hp : ReadsOnly p) (hI : I s) (herr : ∀ e, Q (.error e) s)
    (hok : ∀ a, Syscall.wp (alone h) Q I (f a) s) : Syscall.wp (alone h) Q I (p >>= f) s := by
  refine Syscall.wp_bind (hp.wp hI fun r => ?_)
  cases r with
  | ok a => exact hok a
  | error e => exact herr e

theorem ReadsAt.sees_error {β : Type} {p : Prog α} {f : α → Prog β} (hp : ReadsOnly p)
    (hf : ∀ a, ∃ e, Sees h (.error e) (f a) s) : ∃ e, Sees h (.error e) (p >>= f) s := by
  obtain ⟨r, hr⟩ := hp.sees h s
  cases r with
  | ok a =>
    obtain ⟨e, he⟩ := hf a
    exact ⟨e, hr.bind he⟩
  | error e => exact ⟨e, hr.bind_error⟩

theorem sees_ensure {ok : Bool} {error : String} (hok : ok = true) :
    Sees h (.ok ()) (ensure ok error) s := by
  subst hok; rfl

theorem sees_ensure_error {ok : Bool} {error : String} (hok : ok = false) :
    Sees h (.error error) (ensure ok error) s := by
  subst hok; rfl

section

variable (hd : s.hasDir d = true)
include hd

theorem sees_attest : Sees h (.ok ()) (attest d) s :=
  ⟨rfl, fun _ ht => ht, sees_ensure hd⟩

theorem sees_sync : Sees h (.ok ()) (sync d) s :=
  (sees_attest hd).bind ⟨rfl, fun _ ht => ht, rfl⟩

theorem sees_openDir : Sees h (.ok ()) (openDir d false) s :=
  ⟨rfl, fun _ ht => ht, (sees_ensure hd).bind (sees_attest hd)⟩

theorem sees_existsDir {e : Dir} : Sees h (.ok (s.hasDir e)) (existsDir d e) s :=
  (sees_attest hd).bind ⟨rfl, fun _ ht => ht, rfl⟩

end

theorem sees_existsEntry (hd : s.hasDir (.work p) = true) :
    Sees h (.ok (s.lookup (.entry p e)).isSome) (existsEntry p e) s :=
  (sees_attest hd).bind ⟨rfl, fun _ ht => ht, rfl⟩

theorem sees_fileIdentity {l : Loc} (hl : s.lookup l = some f) (hf : safe h isPrivate f = true) :
    Sees h (.ok (Identity.of h f)) (fileIdentity h l f isPrivate) s := by
  refine ⟨rfl, fun _ ht => ht, ?_⟩
  simp only [exec, hl]
  refine (sees_ensure (by simp [hf])).bind ?_
  cases isPrivate with
  | false => exact (sees_ensure (by simp)).bind (reads_ret _ _)
  | true =>
    refine ⟨rfl, fun _ ht => ht, (sees_ensure ?_).bind ((sees_ensure ?_).bind (reads_ret _ _))⟩
    · simp [exec, hl]
    · simp

/-- A file that passes the checks of `file_identity` and is within the bound. -/
def Readable (h : Host) (isPrivate : Bool) (maximum : ℕ) (f : Inode) : Prop :=
  safe h isPrivate f = true ∧ f.bytes.length ≤ maximum

theorem sees_readFile {l : Loc} {maximum : ℕ} (hl : s.lookup l = some f)
    (hf : Readable h isPrivate maximum f) : Sees h (.ok f) (readFile h l maximum isPrivate) s := by
  refine ⟨rfl, fun _ ht => ht, ?_⟩
  simp only [exec, hl]
  exact (sees_fileIdentity hl hf.1).bind <|
    (sees_ensure (decide_eq_true hf.2)).bind <|
    (sees_fileIdentity hl hf.1).bind <| (sees_ensure (by simpa using hf.2)).bind rfl

theorem sees_regular {l : Loc} {maximum : ℕ} (hl : s.lookup l = some f)
    (hf : Readable h isPrivate maximum f) : Sees h (.ok f) (regular h l maximum isPrivate) s :=
  (sees_readFile hl hf).bind ⟨rfl, fun _ ht => ht, (sees_ensure (by simp [exec, hl])).bind rfl⟩

theorem sees_readReceipt {v : Json} (hl : s.lookup (.entry p e) = some f)
    (hf : Readable h true maxReceipt f) (hv : parseReceipt h f.bytes = .ok v) :
    Sees h (.ok v) (readReceipt h p e) s :=
  (sees_regular hl hf).bind hv

/-- The bound of `Root::inspect` on a name. -/
def Entry.maximum (e : Entry) : ℕ := if e.isSwap then maxConfig else maxReceipt

/-- A transaction directory all of whose files `Root::inspect` can read. -/
def Good (h : Host) (w : Work) : Prop :=
  ∀ e f, w e = some f → Readable h (!e.isSwap) e.maximum f

theorem sees_rootAttest (hr : s.root = true) : Sees h (.ok ()) Root.attest s :=
  (sees_attest rfl).bind (sees_attest hr)

theorem sees_inspectEach (hw : s.work p = some w) (hg : Good h w) (es : List Entry)
    (hes : ∀ e ∈ es, ∃ f, w e = some f) : Sees h (.ok ()) (inspectEach h p es) s := by
  induction es with
  | nil => rfl
  | cons e es ih =>
    obtain ⟨f, hf⟩ := hes e (by simp)
    exact (sees_regular (by simp [lookup, hw, hf]) (hg e f hf)).bind
      (ih fun e' he' => hes e' (by simp [he']))

theorem sees_inspect (hr : s.root = true) (hw : s.work p = some w) (hg : Good h w) :
    Sees h (.ok (w.names all)) (Root.inspect h p) s := by
  refine (sees_rootAttest hr).bind ((sees_attest (by simp [hasDir, hw])).bind
    ⟨rfl, fun _ ht => ht, ?_⟩)
  simp only [exec, hw, Option.elim]
  refine (sees_inspectEach hw hg _ fun e he => ?_).bind rfl
  exact (mem_names.1 he).2

def PublicReadable (h : Host) (s : Disk) : Prop :=
  ∀ i, Readable h false maxConfig (s.packages i)

theorem sees_package (hp : PublicReadable h s) (i : Package) :
    Sees h (.ok (s.packages i)) (regular h (.package i) maxConfig false) s :=
  sees_regular rfl (hp i)

theorem sees_eachPackage {f : Package → Prog Unit} (hf : ∀ i, Sees h (.ok ()) (f i) s) :
    Sees h (.ok ()) (eachPackage f) s :=
  (hf _).bind (hf _)

theorem sees_lockSources (hr : s.root = true) (hp : PublicReadable h s) :
    Sees h (.ok ()) (lockSources h) s :=
  (sees_rootAttest hr).bind <| sees_eachPackage fun i =>
    (sees_package hp i).bind ⟨rfl, fun _ ht => ht, sees_ensure rfl⟩

theorem sees_publicMatches (hr : s.root = true) (hp : PublicReadable h s) (i : Package)
    (v : Version) (moved : Bool) :
    Sees h (.ok (v.matchesFile h (s.packages i) moved)) (publicMatches h i v moved) s :=
  (sees_rootAttest hr).bind ((sees_package hp i).bind rfl)

theorem sees_attestReceipt {versions : Package → Version} (hp : PublicReadable h s)
    (hv : ∀ i, (versions i).matchesFile h (s.packages i) true = true) :
    Sees h (.ok ()) (attestReceipt h versions) s :=
  (sees_openDir rfl).bind <| (sees_eachPackage fun i =>
    (sees_package hp i).bind (sees_ensure (hv i))).bind (sees_attest rfl)

theorem sees_cleanRetired (hr : s.root = true) (hg : s.garbage = none) :
    Sees h (.ok ()) (cleanRetired h) s :=
  (sees_existsDir (d := .root) hr).bind (by simp [hasDir, work, hg, Reads])

/-- The disk with the directory `w` at `p`, `n` events later. -/
def Disk.put (s : Disk) (p : Place) (w : Option Work) (n : ℕ) : Disk :=
  { s.setWork p w with supply := n }

section

variable (s : Disk)

section

variable (p : Place) (w : Option Work) (n : ℕ)

@[simp] theorem Disk.put_packages : (s.put p w n).packages = s.packages := by cases p <;> rfl
@[simp] theorem Disk.put_root : (s.put p w n).root = s.root := by cases p <;> rfl
@[simp] theorem Disk.put_supply : (s.put p w n).supply = n := rfl
@[simp] theorem Disk.put_work : (s.put p w n).work p = w := by cases p <;> rfl

end
section

variable (w : Option Work) (n : ℕ)

@[simp] theorem Disk.put_pending : (s.put .pending w n).pending = w := rfl
@[simp] theorem Disk.put_pending_garbage : (s.put .pending w n).garbage = s.garbage := rfl
@[simp] theorem Disk.put_garbage : (s.put .garbage w n).garbage = w := rfl
@[simp] theorem Disk.put_garbage_pending : (s.put .garbage w n).pending = s.pending := rfl

end
@[simp] theorem Disk.put_accepting (p : Place) (w : Option Work) (n : ℕ) :
    (s.put p w n).accepting = s.accepting := by cases p <;> rfl
@[simp] theorem Disk.put_accepted (p : Place) (w : Option Work) (n : ℕ) :
    (s.put p w n).accepted = s.accepted := by cases p <;> rfl
@[simp] theorem Disk.put_put (p : Place) (w w' : Option Work) (n n' : ℕ) :
    (s.put p w n).put p w' n' = s.put p w' n' := by cases p <;> rfl

theorem Disk.note_of_ne (he : e ≠ .accepted) : s.note e = s := by
  have : (e == Entry.accepted) = false := by simpa using he
  simp [note, this]

theorem Disk.note_of_not_accepting (hs : s.accepting = false) : s.note e = s := by
  cases s
  subst hs
  simp [note]

end

/-- A private file of ours, as `write_new` makes it. -/
structure Fresh (h : Host) (n : ℕ) (bytes : Bytes) (f : Inode) : Prop where
  ino : f.ino = n
  uid : f.uid = h.uid
  mode : f.mode = 0o100600
  bytes_eq : f.bytes = bytes

theorem Fresh.safe {n : ℕ} {bytes : Bytes} (hf : Fresh h n bytes f) (isPrivate : Bool) :
    safe h isPrivate f = true := by
  cases isPrivate <;> simp [UciTransaction.safe, hf.uid, hf.mode]

theorem wp_sys {c : Call} {f : Reply c → Prog α} {r : Reply c} {s' : Disk}
    (he : exec h c s = (r, s')) (hI : I s) (ht : ∀ s'', torn h c s s'' → I s'')
    (hf : wp (alone h) Q I (f r) s') : wp (alone h) Q I (sys c >>= f) s :=
  wp_alone_call hI ht (by rw [he]; exact hf)

/-- `write_new` makes the file in one go, or a crash leaves a prefix of it. -/
theorem wp_writeNew {bytes : Bytes} (hw : s.work p = some w) (he : w e = none) (hI : I s)
    (hpart : ∀ part f n, part <+: bytes → Fresh h s.supply part f → s.supply < n →
      I (s.put p (some (update w e (some f))) n))
    (hk : ∀ f n, Fresh h s.supply bytes f → s.supply < n →
      wp (alone h) Q I (k ()) (s.put p (some (update w e (some f))) n)) :
    wp (alone h) Q I (writeNew h p e bytes >>= k) s := by
  set n := s.supply with hn
  have hnew : Fresh h n [] (newFile h n) := ⟨rfl, rfl, rfl, rfl⟩
  have happ : ∀ part, Fresh h n part ((newFile h n).append part (h.clock (n + 1))) :=
    fun part => ⟨rfl, rfl, rfl, rfl⟩
  have hcreate : exec h (.create p e) s =
      (true, s.put p (some (update w e (some (newFile h n)))) (n + 1)) := by
    cases p <;> simp_all [exec, Disk.put, Disk.tick, Disk.setWork]
  set s₁ := s.put p (some (update w e (some (newFile h n)))) (n + 1) with hs₁
  have hwrite : ∀ part, exec h (.write p e part) s₁ =
      ((), s.put p (some (update w e
        (some ((newFile h n).append part (h.clock (n + 1)))))) (n + 2)) := by
    intro part
    cases p <;> simp [exec, Disk.modify, hs₁, Disk.put, Disk.tick, Disk.setWork, Disk.work]
  unfold writeNew
  simp only [bind_bind]
  refine (sees_attest (by simp [Disk.hasDir, hw])).wp_bind ?_
  have hI₁ : I s₁ := hpart [] _ _ List.nil_prefix hnew (by omega)
  refine wp_sys hcreate hI (fun _ ht => ht.elim) ?_
  refine (sees_ensure rfl).wp_bind ?_
  refine wp_sys (hwrite bytes) hI₁ ?_ ?_
  · rintro s' ⟨part, hp, rfl⟩
    rw [hwrite]
    exact hpart part _ _ hp (happ part) (by omega)
  set s₂ := s.put p (some (update w e
    (some ((newFile h n).append bytes (h.clock (n + 1)))))) (n + 2) with hs₂
  have hI₂ : I s₂ := hpart bytes _ _ List.prefix_rfl (happ bytes) (by omega)
  have hl : s₂.lookup (.entry p e) = some ((newFile h n).append bytes (h.clock (n + 1))) := by
    simp [Disk.lookup, hs₂]
  refine wp_sys rfl hI₂ (fun _ ht => ht.elim) ?_
  refine (sees_attest (by simp [Disk.hasDir, hs₂])).wp_bind ?_
  refine wp_sys rfl hI₂ (fun _ ht => ht.elim) ?_
  simp only [hl, bind_bind]
  exact (sees_fileIdentity hl ((happ bytes).safe true)).wp_bind (hk _ _ (happ bytes) (by omega))

def receiptBytes (h : Host) (v : Json) : Bytes := receiptMark ++ h.serde.toVec v

/-- `write_receipt`: too large and nothing is written, or as `write_new`. -/
theorem wp_writeReceipt {v : Json} (hw : s.work p = some w) (he : w e = none) (hI : I s)
    (hlong : Q (.error "uci-transaction-receipt-too-large") s)
    (hpart : ∀ part f n, part <+: receiptBytes h v → part.length ≤ maxReceipt →
      Fresh h s.supply part f → s.supply < n → I (s.put p (some (update w e (some f))) n))
    (hk : ∀ f n, Fresh h s.supply (receiptBytes h v) f → f.bytes.length ≤ maxReceipt →
      s.supply < n → wp (alone h) Q I (k ()) (s.put p (some (update w e (some f))) n)) :
    wp (alone h) Q I (writeReceipt h p e v >>= k) s := by
  unfold writeReceipt
  simp only [bind_bind]
  by_cases hlen : (receiptBytes h v).length ≤ maxReceipt
  · refine (sees_ensure (decide_eq_true hlen)).wp_bind ?_
    refine wp_writeNew hw he hI (fun part f n hp => hpart part f n hp (hp.length_le.trans hlen)) ?_
    intro f n hf hn
    refine (sees_sync (by simp [hasDir])).wp_bind (hk f n hf ?_ hn)
    rw [hf.bytes_eq]
    exact hlen
  · exact (Reads.bind_error (sees_ensure_error (decide_eq_false hlen))).wp hI hlong

theorem sees_renamed : Sees h (.ok ()) (renamed .done) s := rfl

/-- `rename` between two names of a transaction directory. -/
theorem wp_renameEntry {old new : Entry} (hw : s.work p = some w) (hold : w old = some f)
    (hnew : w new = none) (hI : I s)
    (hk : wp (alone h) Q I (k ()) ((s.put p (some (update (update w old none) new
      (some (f.touch (h.clock s.supply))))) (s.supply + 1)).note new)) :
    wp (alone h) Q I (renameEntry p old new >>= k) s := by
  have hd : s.hasDir (.work p) = true := by simp [hasDir, hw]
  have hexec : exec h (.rename p old new) s = (.done, (s.put p (some (update
      (update w old none) new (some (f.touch (h.clock s.supply))))) (s.supply + 1)).note
      new) := by
    cases p <;> simp_all [exec, put, tick, setWork, note]
  unfold renameEntry renameBetween
  simp only [bind_bind]
  refine (sees_attest hd).wp_bind ((sees_attest hd).wp_bind ?_)
  refine wp_sys hexec hI (fun _ ht => ht.elim) ?_
  have hd' : ∀ e w' n, ((s.put p (some w') n).note e).hasDir (.work p) = true := by
    intro e w' n
    cases p <;> rfl
  exact sees_renamed.wp_bind ((sees_sync (hd' _ _ _)).wp_bind ((sees_sync (hd' _ _ _)).wp_bind hk))

def Disk.exchanged (s : Disk) (i : Package) (w : Work) (g : Inode) (t : Timestamp) : Disk :=
  { s with
    packages := update s.packages i (g.touch t)
    pending := some (update w (.swap i) (some ((s.packages i).touch t)))
    supply := s.supply + 1 }

/-- `rename` of a package with its swap. -/
theorem wp_exchangeSwap {i : Package} {site : Exchange} {g : Inode} (hw : s.pending = some w)
    (hg : w (.swap i) = some g) (hI : I s)
    (hk : wp (alone h) Q I (k ()) (s.exchanged i w g (h.clock s.supply))) :
    wp (alone h) Q I (exchangeSwap i site >>= k) s := by
  have hexec : exec h (.exchange i site) s = (.done, s.exchanged i w g (h.clock s.supply)) := by
    simp [exec, hw, hg, exchanged, tick]
  unfold exchangeSwap renameBetween
  simp only [bind_bind]
  refine (sees_attest rfl).wp_bind ((sees_attest (by simp [hasDir, work, hw])).wp_bind ?_)
  refine wp_sys hexec hI (fun _ ht => ht.elim) ?_
  refine sees_renamed.wp_bind ((sees_sync rfl).wp_bind ((sees_sync ?_).wp_bind hk))
  simp [hasDir, work, exchanged]

/-- What is left of `w` while the names `es` are being removed. -/
def Removing (es : List Entry) (w w' : Work) : Prop :=
  ∀ e, w' e = w e ∨ (e ∈ es ∧ w' e = none)

/-- The removal loop of `Root::clean_retired`. -/
theorem wp_removeEach (es : List Entry) (w : Work) (s : Disk) (hw : s.garbage = some w)
    (hes : ∀ e ∈ es, ∃ f, w e = some f) (hnd : es.Nodup)
    (hI : ∀ w', Removing es w w' → I (s.put .garbage (some w') s.supply))
    (hk : wp (alone h) Q I (k ())
      (s.put .garbage (some fun e => if e ∈ es then none else w e) s.supply)) :
    wp (alone h) Q I (removeEach es >>= k) s := by
  have hself : s.put .garbage (some w) s.supply = s := by
    cases s; subst hw; rfl
  induction es generalizing w s with
  | nil =>
    have : s.put .garbage (some fun e => if e ∈ ([] : List Entry) then none else w e) s.supply = s := by
      simpa using hself
    rw [this] at hk
    exact hk
  | cons e es ih =>
    obtain ⟨f, hf⟩ := hes e (by simp)
    have hexec : exec h (.unlink .garbage e) s =
        (true, s.put .garbage (some (update w e none)) s.supply) := by
      simp [exec, work, hw, hf, put, setWork]
    have hIs : I s := by
      have := hI w fun e' => .inl rfl
      rwa [hself] at this
    rw [List.nodup_cons] at hnd
    unfold removeEach
    simp only [bind_bind]
    refine (sees_attest (by simp [hasDir, work, hw])).wp_bind ?_
    refine wp_sys hexec hIs (fun _ ht => ht.elim) ((sees_ensure rfl).wp_bind ?_)
    refine ih (update w e none) _ rfl ?_ hnd.2 ?_ ?_ rfl
    · intro e' he'
      obtain ⟨f', hf'⟩ := hes e' (by simp [he'])
      have hne : e' ≠ e := fun heq => hnd.1 (heq ▸ he')
      exact ⟨f', by rw [update_of_ne hne]; exact hf'⟩
    · intro w' hw'
      refine hI w' fun e' => ?_
      rcases hw' e' with h' | ⟨h', h''⟩
      · by_cases hee : e' = e
        · subst hee; exact .inr ⟨by simp, by rw [h']; simp⟩
        · exact .inl (by rw [h', update_of_ne hee])
      · exact .inr ⟨by simp [h'], h''⟩
    · rw [put_put, put_supply]
      convert hk using 4 with e'
      by_cases hee : e' = e
      · subst hee; simp
      · simp [hee]

/-- A directory on its way out: what `Root::clean_retired` accepts. -/
structure Retired (h : Host) (w : Work) : Prop where
  good : Good h w
  marker : (∀ e, w e = none) ∨ ∃ f, w .accepted = some f ∧ f.bytes = acceptedMark

theorem names_nodup (w : Work) : (w.names all).Nodup :=
  List.Nodup.filter _ (by decide)

theorem names_eq_nil : w.names all = [] ↔ ∀ e, w e = none := by
  simp [names, mem_all]

/-- `Root::clean_retired` empties and removes `garbage`; every crash on the way
leaves a directory it accepts again. -/
theorem wp_cleanRetired (hr : s.root = true) (hw : s.garbage = some w) (hret : Retired h w)
    (hI : ∀ w', Retired h w' → I (s.put .garbage (some w') s.supply))
    (hk : wp (alone h) Q I (k ()) (s.put .garbage none s.supply)) :
    wp (alone h) Q I (cleanRetired h >>= k) s := by
  have hself : s.put .garbage (some w) s.supply = s := by
    cases s; subst hw; rfl
  have hIs : I s := by
    have := hI w hret
    rwa [hself] at this
  have hwork : s.work .garbage = some w := hw
  -- the end of the function, from an empty `garbage`
  have hend : ∀ s' : Disk, s'.root = true → s'.garbage = some (fun _ => none) →
      I s' → s'.put .garbage none s'.supply = s.put .garbage none s.supply →
      wp (alone h) Q I ((do
        attest (.work .garbage)
        ensure (← sys (Call.rmdir .garbage)) "uci-transaction-io"
        sync .root) >>= k) s' := by
    intro s' hr' hg' hI' heq
    have hexec : exec h (.rmdir .garbage) s' = (true, s'.put .garbage none s'.supply) := by
      have : names all (fun _ => none : Work) = [] := names_eq_nil.2 fun _ => rfl
      simp [exec, work, hg', this, put, setWork]
    simp only [bind_bind]
    refine (sees_attest (by simp [hasDir, work, hg'])).wp_bind ?_
    refine wp_sys hexec hI' (fun _ ht => ht.elim) ((sees_ensure rfl).wp_bind ?_)
    refine (sees_sync (by simpa [hasDir] using hr')).wp_bind ?_
    rw [heq]
    exact hk
  unfold cleanRetired
  simp only [bind_bind]
  refine (sees_existsDir (d := .root) (e := .work .garbage) hr).wp_bind ?_
  simp only [hasDir, hwork, isSome_some, if_true, bind_bind]
  refine (sees_openDir (by simp [hasDir, hwork])).wp_bind ?_
  refine (sees_inspect hr hwork hret.good).wp_bind ?_
  by_cases hempty : ∀ e, w e = none
  · have hnil := names_eq_nil.2 hempty
    have hwe : w = fun _ => none := funext hempty
    simp only [hnil, List.isEmpty_nil, Bool.not_true, Bool.false_eq_true, if_false]
    have := hend s hr (hwe ▸ hw) hIs rfl
    simpa only [bind_bind] using this
  · obtain ⟨f, hf, hmark⟩ := hret.marker.resolve_left hempty
    have hne : (w.names all).isEmpty = false := by
      simpa [names_eq_nil] using hempty
    simp only [hne, Bool.not_false, if_true, bind_bind]
    refine (sees_regular (f := f) (by simp [lookup, hwork, hf]) (hret.good _ _ hf)).wp_bind ?_
    refine (sees_ensure (by simp [hmark])).wp_bind ?_
    set es := (w.names Entry.all).filter (· ≠ Entry.accepted) with hes
    have hmem : ∀ e ∈ es, ∃ f, w e = some f := fun e he =>
      (mem_names.1 (List.mem_filter.1 he).1).2
    refine wp_removeEach es w s hw hmem ((names_nodup w).filter _) ?_ ?_
    · intro w' hw'
      refine hI w' ⟨fun e g hg => ?_, .inr ⟨f, ?_, hmark⟩⟩
      · rcases hw' e with h' | ⟨_, h'⟩
        · exact hret.good e g (h' ▸ hg)
        · rw [h'] at hg; cases hg
      · rcases hw' .accepted with h' | ⟨h', _⟩
        · rw [h']; exact hf
        · simp [hes] at h'
    set w₁ : Work := fun e => if e ∈ es then none else w e with hw₁
    have hw₁a : w₁ .accepted = some f := by simp [hw₁, hes, hf]
    have hw₁n : ∀ e, e ≠ .accepted → w₁ e = none := by
      intro e he
      by_cases hwe : w e = none
      · simp [hw₁, hwe]
      · obtain ⟨g, hg⟩ := ne_none_iff_exists'.1 hwe
        have : e ∈ es := List.mem_filter.2 ⟨mem_names.2 ⟨mem_all e, g, hg⟩, by simpa using he⟩
        simp [hw₁, this]
    have hw₁r : Retired h w₁ := by
      refine ⟨fun e g hg => ?_, .inr ⟨f, hw₁a, hmark⟩⟩
      by_cases he : e = .accepted
      · subst he
        rw [hw₁a] at hg
        cases hg
        exact hret.good _ _ hf
      · rw [hw₁n e he] at hg; cases hg
    have hlast : update w₁ .accepted none = fun _ => none := by
      funext e
      by_cases he : e = .accepted
      · subst he; simp
      · rw [update_of_ne he, hw₁n e he]
    have hexec : exec h (.unlink .garbage .accepted) (s.put .garbage (some w₁) s.supply) =
        (true, s.put .garbage (some fun _ => none) s.supply) := by
      simp [exec, work, hw₁a, put, setWork, hlast]
    refine (sees_sync (by simp [hasDir])).wp_bind ?_
    refine wp_sys hexec (hI w₁ hw₁r) (fun _ ht => ht.elim) ((sees_ensure rfl).wp_bind ?_)
    refine (sees_sync (by simp [hasDir])).wp_bind ?_
    have := hend (s.put .garbage (some fun _ => none) s.supply) (by simpa using hr) (by simp)
      (hI _ ⟨fun _ _ hg => by simp at hg, .inl fun _ => rfl⟩) (by simp)
    simpa only [bind_bind] using this

/-- A partial `accepted.tmp`, or none. -/
def MarkerPart (h : Host) (t : Option Inode) : Prop :=
  ∀ f, t = some f → Readable h true maxReceipt f ∧ f.bytes <+: acceptedMark

theorem acceptedMark_length : acceptedMark.length ≤ maxReceipt := by decide

theorem MarkerPart.of_fresh {n : ℕ} {part : Bytes} (hf : Fresh h n part f)
    (hp : part <+: acceptedMark) : MarkerPart h (some f) := by
  rintro g ⟨⟩
  rw [← hf.bytes_eq] at hp
  exact ⟨⟨hf.safe true, hp.length_le.trans acceptedMark_length⟩, hp⟩

/-- A pending directory that is marked as finished. -/
structure Marked (h : Host) (w w' : Work) : Prop where
  good : Good h w'
  marker : ∃ f, w' .accepted = some f ∧ f.bytes = acceptedMark
  rest : ∀ e, e ≠ .accepted → e ≠ .acceptedTmp → w' e = w e

theorem good_update (hg : Good h w) {t : Option Inode}
    (ht : ∀ f, t = some f → Readable h (!e.isSwap) e.maximum f) :
    Good h (update w e t) := by
  intro e' f hf
  by_cases he : e' = e
  · subst he
    rw [update_self] at hf
    exact ht f hf
  · rw [update_of_ne he] at hf
    exact hg e' f hf

/-- The marker is written aside and renamed into place; until then only
`accepted.tmp` is touched. -/
theorem wp_markAccepted (hw : s.pending = some w) (hg : Good h w)
    (htmp : MarkerPart h (w .acceptedTmp)) (hI : I s)
    (hpart : ∀ t n, MarkerPart h t → s.supply ≤ n →
      w .accepted = none → I (s.put .pending (some (update w .acceptedTmp t)) n))
    (hdone : (w .accepted).isSome → wp (alone h) Q I (k ()) s)
    (hk : ∀ w' n, w .accepted = none → Marked h w w' → s.supply ≤ n →
      wp (alone h) Q I (k ()) ((s.put .pending (some w') n).note .accepted)) :
    wp (alone h) Q I (markAccepted h >>= k) s := by
  have hwork : s.work .pending = some w := hw
  have hd : s.hasDir (.work .pending) = true := by simp [hasDir, hwork]
  -- from a directory without `accepted.tmp`: write it and rename it
  have hwrite : ∀ (s' : Disk) (w₀ : Work), s'.pending = some w₀ → w₀ .acceptedTmp = none →
      w .accepted = none → (∀ e, e ≠ .acceptedTmp → w₀ e = w e) → s.supply ≤ s'.supply →
      (∀ w' n, s'.put .pending w' n = s.put .pending w' n) → I s' →
      wp (alone h) Q I ((do
        writeNew h .pending .acceptedTmp acceptedMark
        renameEntry .pending .acceptedTmp .accepted) >>= k) s' := by
    intro s' w₀ hw₀ hno hacc hrest hn hput hI'
    have hupd : ∀ t, update w₀ .acceptedTmp t = update w .acceptedTmp t := by
      intro t
      funext e
      by_cases he : e = .acceptedTmp
      · subst he; simp
      · simp [he, hrest e he]
    simp only [bind_bind]
    refine wp_writeNew (w := w₀) hw₀ hno hI' ?_ ?_
    · intro part f n hp hf hn'
      rw [hupd, hput]
      exact hpart _ n (.of_fresh hf hp) (by omega) hacc
    · intro f n hf hn'
      rw [hupd, hput]
      have hfp := MarkerPart.of_fresh hf List.prefix_rfl
      refine wp_renameEntry (f := f) (w := update w .acceptedTmp (some f)) (by simp)
        (by simp) (by simp [hacc]) (hpart _ n hfp (by omega) hacc) ?_
      rw [put_put, put_supply]
      refine hk _ _ hacc ⟨?_, ⟨f.touch (h.clock n), by simp, by simp [hf.bytes_eq]⟩, ?_⟩ (by omega)
      · refine good_update (good_update (good_update hg ?_) (by simp)) ?_
        · exact fun g hg' => (hfp g hg').1
        · rintro g ⟨⟩
          exact ⟨(hfp f rfl).1.1, (hfp f rfl).1.2⟩
      · intro e he he'
        simp [he, he']
  unfold markAccepted
  simp only [bind_bind]
  refine (sees_existsEntry hd).wp_bind ?_
  cases hacc : w .accepted with
  | some f =>
    have : (s.lookup (.entry .pending .accepted)).isSome = true := by simp [lookup, hwork, hacc]
    simp only [this, Bool.not_true, Bool.false_eq_true, if_false]
    exact hdone (by simp [hacc])
  | none =>
    have : (s.lookup (.entry .pending .accepted)).isSome = false := by
      simp [lookup, hwork, hacc]
    simp only [this, Bool.not_false, if_true, bind_bind]
    refine (sees_existsEntry hd).wp_bind ?_
    cases ht : w .acceptedTmp with
    | none =>
      have : (s.lookup (.entry .pending .acceptedTmp)).isSome = false := by
        simp [lookup, hwork, ht]
      simp only [this, Bool.false_eq_true, if_false]
      have := hwrite s w hw ht hacc (fun _ _ => rfl) le_rfl (fun _ _ => rfl) hI
      simpa only [bind_bind] using this
    | some f =>
      have hl : s.lookup (.entry .pending .acceptedTmp) = some f := by
        simp [lookup, hwork, ht]
      obtain ⟨hread, hprefix⟩ := htmp f ht
      have hexec : exec h (.unlink .pending .acceptedTmp) s =
          (true, s.put .pending (some (update w .acceptedTmp none)) s.supply) := by
        simp [exec, work, hw, ht, put, setWork]
      simp only [hl, isSome_some, if_true, bind_bind]
      refine (sees_regular hl hread).wp_bind ((sees_ensure (by simpa using hprefix)).wp_bind ?_)
      refine wp_sys hexec hI (fun _ ht => ht.elim) ((sees_ensure rfl).wp_bind ?_)
      have := hwrite (s.put .pending (some (update w .acceptedTmp none)) s.supply)
        (update w .acceptedTmp none) (by simp) (by simp) hacc
        (fun e he => by simp [he]) (by simp) (by simp)
        (hpart none _ (fun _ hf => by cases hf) le_rfl hacc)
      simpa only [bind_bind] using this

section

variable (hr : s.root = true) (hw : s.pending = some w) (hgarbage : s.garbage = none)
  (hg : Good h w)
include hr hw hgarbage hg

/-- The second half of `Root::retire`, from a marked directory. -/
theorem wp_retireMarked (hm : ∃ f, w .accepted = some f ∧ f.bytes = acceptedMark) (hI : I s)
    (hret : ∀ w', Retired h w' → I { s with pending := none, garbage := some w' })
    (hk : wp (alone h) Q I (k ()) { s with pending := none }) :
    wp (alone h) Q I (retireMarked h >>= k) s := by
  obtain ⟨f, hf, hmark⟩ := hm
  have hwork : s.work .pending = some w := hw
  have hexec : exec h .retire s = (.done, { s with pending := none, garbage := some w }) := by
    simp [exec, hw, hgarbage]
  simp only [retireMarked, bind_bind, renameBetween]
  refine (sees_regular (f := f) (by simp [lookup, hwork, hf]) (hg _ _ hf)).wp_bind ?_
  refine (sees_ensure (by simp [hmark])).wp_bind ?_
  refine (sees_sync (by simp [hasDir, hwork])).wp_bind ?_
  refine (sees_attest (d := .root) hr).wp_bind ((sees_attest (d := .root) hr).wp_bind ?_)
  refine wp_sys hexec hI (fun _ ht => ht.elim) (sees_renamed.wp_bind ?_)
  have hr' : ({ s with pending := none, garbage := some w } : Disk).hasDir .root = true := hr
  refine (sees_sync hr').wp_bind ((sees_sync hr').wp_bind ?_)
  refine wp_cleanRetired (w := w) hr rfl ⟨hg, .inr ⟨f, hf, hmark⟩⟩ hret ?_
  have : ({ s with pending := none, garbage := some w } : Disk).put .garbage none s.supply =
      { s with pending := none } := by
    simp [put, setWork, hgarbage]
  rw [this]
  exact hk

/-- `Root::retire`: what it leaves, and every crash on the way. -/
theorem wp_retire (htmp : MarkerPart h (w .acceptedTmp))
    (hmark : ∀ f, w .accepted = some f → f.bytes = acceptedMark)
    (hnote : (w .accepted).isSome → s.note .accepted = s) (hI : I s)
    (hpart : ∀ t n, MarkerPart h t → s.supply ≤ n → w .accepted = none →
      I (s.put .pending (some (update w .acceptedTmp t)) n))
    (hmarked : ∀ w' n, Marked h w w' → s.supply ≤ n → I ((s.put .pending (some w') n).note .accepted))
    (hret : ∀ w' n, Retired h w' → s.supply ≤ n →
      I { (s.put .pending none n).note .accepted with garbage := some w' })
    (hk : ∀ n, s.supply ≤ n → wp (alone h) Q I (k ()) ((s.put .pending none n).note .accepted)) :
    wp (alone h) Q I (retire h >>= k) s := by
  have hmarkw : ∀ w' n, Marked h w w' → s.supply ≤ n →
    wp (alone h) Q I (retireMarked h >>= k) ((s.put .pending (some w') n).note .accepted) := by
    intro w' n hm hn
    exact wp_retireMarked (w := w') hr rfl hgarbage hm.good hm.marker (hmarked w' n hm hn)
      (fun w'' hw'' => hret w'' n hw'' hn) (hk n hn)
  unfold retire
  simp only [bind_bind]
  refine (sees_inspect (p := .pending) hr hw hg).wp_bind ?_
  refine wp_markAccepted hw hg htmp hI hpart ?_ ?_
  · intro hsome
    obtain ⟨f, hf⟩ := isSome_iff_exists.1 hsome
    have := hmarkw w s.supply ⟨hg, ⟨f, hf, hmark f hf⟩, fun _ _ _ => rfl⟩ le_rfl
    have hself : s.put .pending (some w) s.supply = s := by
      cases s; subst hw; rfl
    rw [hself, hnote hsome] at this
    simpa only [bind_bind] using this
  · intro w' n _ hm hn
    have := hmarkw w' n hm hn
    simpa only [bind_bind] using this

end

/-- `Root::open` makes the workspace and finishes an earlier retirement. -/
theorem wp_rootOpen (hg : ∀ w, s.garbage = some w → s.root = true ∧ Retired h w)
    (hI : ∀ root lock garbage, (s.root = true → root = true) →
      (∀ w, garbage = some w → root = true ∧ Retired h w) →
      I { s with root, lock, garbage })
    (hk : wp (alone h) Q I (k ()) { s with root := true, lock := true, garbage := none }) :
    wp (alone h) Q I (Root.open h >>= k) s := by
  have hI₀ : I s := hI s.root s.lock s.garbage id hg
  have hI₁ : I { s with root := true } := hI true s.lock s.garbage (fun _ => rfl)
    fun w hw => ⟨rfl, (hg w hw).2⟩
  have hmkdir : exec h (.mkdir .root) s = (true, { s with root := true }) := rfl
  have hlock : exec h .openLock { s with root := true } =
      (true, { s with root := true, lock := true }) := by simp [exec]
  unfold Root.open
  simp only [bind_bind]
  refine (sees_openDir rfl).wp_bind ?_
  simp only [openDir, if_true, bind_bind]
  refine wp_sys hmkdir hI₀ (fun _ ht => ht.elim) ((sees_ensure rfl).wp_bind ?_)
  refine wp_sys rfl hI₁ (fun _ ht => ht.elim) ((sees_ensure rfl).wp_bind ?_)
  refine (sees_attest rfl).wp_bind ?_
  refine wp_sys hlock hI₁ (fun _ ht => ht.elim) ((sees_ensure rfl).wp_bind ?_)
  refine (sees_rootAttest rfl).wp_bind ?_
  cases hgarb : s.garbage with
  | none => exact (sees_cleanRetired rfl rfl).wp_bind hk
  | some w =>
    exact wp_cleanRetired (w := w) rfl rfl (hg w hgarb).2
      (fun w' hw' => hI true true (some w') (fun _ => rfl)
        fun w'' heq => by cases heq; exact ⟨rfl, hw'⟩) hk

end CakeAutorate.UciTransaction
