/-
# Other writers of the config directory

Another writer commits a package by replacing its public file with a new inode,
at any moment, also between a check of the transaction and the exchange that
follows it. `last` remembers each package's last commit of this kind; it is
stored while the public file or the package's swap is that file.
-/

import CakeAutorate.UciTransaction.Recovery
import CakeAutorate.Syscall.Interference

namespace CakeAutorate.UciTransaction

open Syscall Syscall.Program

/-- The disk, and the last commit of another writer to each package. -/
structure Shared where
  disk : Disk
  last : Package → Option Inode

/-- Another writer commits the new inode `f` as package `i`. -/
def Shared.commit (s : Shared) (i : Package) (f : Inode) : Shared where
  disk := { s.disk with
    packages := Function.update s.disk.packages i f, supply := s.disk.supply + 1 }
  last := Function.update s.last i (some f)

def shared (h : Host) : System Shared Call Reply where
  step c s r s' := exec h c s.disk = (r, s'.disk) ∧ s'.last = s.last
  torn c s s' := torn h c s.disk s'.disk ∧ s'.last = s.last
  env s s' := ∃ i f, f.ino = s.disk.supply ∧ s' = s.commit i f

def AtPublic (i : Package) (s : Shared) : Prop :=
  ∀ f, s.last i = some f → f.SameFile (s.disk.packages i)

def InSwap (i : Package) (s : Shared) : Prop :=
  ∃ w g, s.disk.pending = some w ∧ w (.swap i) = some g ∧ ∀ f, s.last i = some f → f.SameFile g

/-- **No commit is lost**: the last one to each package is the public file or
the swap of that package in the pending directory. -/
def Stored (s : Shared) : Prop := ∀ i, AtPublic i s ∨ InSwap i s

section Commit

variable {s : Shared} {i k : Package} {f : Inode}

theorem commit_packages_of_ne (hk : k ≠ i) :
    (s.commit i f).disk.packages k = s.disk.packages k := by
  simp [Shared.commit, hk]

theorem commit_last_of_ne (hk : k ≠ i) : (s.commit i f).last k = s.last k := by
  simp [Shared.commit, hk]

theorem commit_atPublic : AtPublic i (s.commit i f) := by
  intro g hg
  simp only [Shared.commit, Function.update_self, Option.some.injEq] at hg ⊢
  rw [hg]
  exact Inode.sameFile_refl _

theorem AtPublic.commit (hs : AtPublic k s) : AtPublic k (s.commit i f) := by
  by_cases hk : k = i
  · subst hk
    exact commit_atPublic
  · intro g hg
    rw [commit_last_of_ne hk] at hg
    rw [commit_packages_of_ne hk]
    exact hs g hg

end Commit

variable {h : Host}

theorem stable_atPublic (h : Host) (i : Package) : (shared h).Stable (AtPublic i) := by
  rintro s s' ⟨k, f, -, rfl⟩ hs
  exact hs.commit

def Careful (h : Host) : Call → Shared → Prop
  | .exchange i (.undo displaced), s => displaced.matchesFile h (s.disk.packages i) true = true
  | _, _ => True

/-- The disk with other writers at work, none of whom commits between the last
check of an undo and its exchange. -/
abbrev careful (h : Host) : System Shared Call Reply := (shared h).restrict (Careful h)

theorem Shared.ext' {s s' : Shared} (hd : s'.disk = s.disk) (hl : s'.last = s.last) : s' = s := by
  cases s'
  exact congr (congrArg Shared.mk hd) hl

theorem careful_reads (h : Host) (L : Loc → Prop) :
    (careful h).Reads Shared.disk (exec h) (Call.At L) where
  step c s r s' hc hstep := by
    have hexec := hc.exec_eq h s.disk
    rw [hstep.2.1] at hexec
    exact ⟨Shared.ext' hexec hstep.2.2, by rw [hstep.2.1]⟩
  torn c s s' hc ht := hc.not_torn h s.disk s'.disk ht.1

section Reading

variable {α β : Type} {A I : Shared → Prop} {Q : Except String β → Shared → Prop}
  {p : Prog α} {f : α → Prog β} {s : Shared}

theorem wp_sys_bind {c : Call} {k : Reply c → Prog β} (hA : (careful h).Stable A)
    (hI : ∀ s, A s → I s) (ht : ∀ s s', A s → (careful h).torn c s s' → I s')
    (hk : ∀ s r s', A s → (careful h).step c s r s' → wp (careful h) Q I (k r) s') (hs : A s) :
    wp (careful h) Q I (sys c >>= k) s :=
  wp_call_stable hA hI ht hk hs

theorem wp_keep_bind (hp : ReadsOnly p) (hA : (careful h).Stable A) (hI : ∀ s, A s → I s)
    (herr : ∀ e s', A s' → Q (.error e) s') (hok : ∀ a s', A s' → wp (careful h) Q I (f a) s')
    (hs : A s) : wp (careful h) Q I (p >>= f) s := by
  refine wp_bind (wp_post ?_ (hp.wp_keep (careful_reads h _) hA hI hs))
  rintro (e | a) s' hs'
  · exact herr e s' hs'
  · exact hok a s' hs'

def Loc.IsEntry : Loc → Prop
  | .entry .. => True
  | .package _ => False

theorem wp_private {r : Except String α} (hp : ReadsAt Loc.IsEntry p) (hr : Sees h r p s.disk)
    (hA : (careful h).Stable A) (hI : ∀ s, A s → I s) (hs : A s) :
    wp (careful h) (fun r' s' => A s' ∧ r' = r) I p s := by
  have hwp := hp.wp_answer (B := fun _ => False) (I := I)
    (V := fun d d' => d'.root = d.root ∧ d'.pending = d.pending ∧ d'.garbage = d.garbage)
    (careful_reads h _) hA (fun _ _ _ h => h) hI ?_ (d := s.disk) ?_ hr hs ⟨rfl, rfl, rfl⟩
  · exact wp_post (fun r' s' h => ⟨h.1, (h.2.resolve_left id).2⟩) hwp
  · rintro c d d' hc ⟨hroot, hpend, hgarb⟩
    have hwork : ∀ p, d'.work p = d.work p := by rintro (_ | _) <;> assumption
    have hdir : ∀ x, d'.hasDir x = d.hasDir x := by
      rintro (_ | _ | _) <;> simp [Disk.hasDir, hroot, hwork]
    have hlook : ∀ l, l.IsEntry → d'.lookup l = d.lookup l := by
      rintro (_ | _) hl
      · exact hl.elim
      · simp [Disk.lookup, hwork]
    cases c <;> simp_all [exec, Call.At]
  · rintro s₁ s₂ ⟨i, g, -, rfl⟩ hsame
    exact .inl hsame

theorem wp_sees_bind {a : α} (hp : ReadsAt Loc.IsEntry p) (hr : Sees h (.ok a) p s.disk)
    (hA : (careful h).Stable A) (hI : ∀ s, A s → I s)
    (hok : ∀ s', A s' → wp (careful h) Q I (f a) s') (hs : A s) :
    wp (careful h) Q I (p >>= f) s := by
  refine wp_bind (wp_post ?_ (wp_private hp hr hA hI hs))
  rintro r s' ⟨hs', rfl⟩
  exact hok s' hs'

theorem wp_private_bind (hp : ReadsAt Loc.IsEntry p) (hA : (careful h).Stable A)
    (hI : ∀ s, A s → I s) (herr : ∀ e s', A s' → Q (.error e) s')
    (hok : ∀ a s', Sees h (.ok a) p s.disk → A s' → wp (careful h) Q I (f a) s') (hs : A s) :
    wp (careful h) Q I (p >>= f) s := by
  obtain ⟨r, hr⟩ : ∃ r, Sees h r p s.disk :=
    hp.reads fun _ hc => ⟨hc.exec_eq h s.disk, hc.not_torn h s.disk⟩
  refine wp_bind (wp_post ?_ (wp_private hp hr hA hI hs))
  rintro r' s' ⟨hs', rfl⟩
  cases r' with
  | error e => exact herr e s' hs'
  | ok a => exact hok a s' hr hs'

/-- The public file of package `i` is read as it was, or somebody has committed
it meanwhile. -/
theorem wp_publicMatches_bind {f : Bool → Prog β} {i : Package} {v : Version} {moved : Bool}
    (hA : (careful h).Stable A) (hI : ∀ s, A s → I s) (hroot : s.disk.root = true)
    (hcase : AtPublic i s ∨ Readable h false maxConfig (s.disk.packages i))
    (herr : ∀ e s', A s' → AtPublic i s' → Q (.error e) s')
    (hok : ∀ b s', A s' → (AtPublic i s' ∨ s'.disk.packages i = s.disk.packages i ∧
      b = v.matchesFile h (s.disk.packages i) moved) → wp (careful h) Q I (f b) s') (hs : A s) :
    wp (careful h) Q I (publicMatches h i v moved >>= f) s := by
  by_cases hpub : AtPublic i s
  · have := (readsOnly_publicMatches (h := h) i v moved).wp_keep (careful_reads h _)
      (hA.and (stable_atPublic h i)) (fun s hs => hI s hs.1) ⟨hs, hpub⟩
    refine wp_bind (wp_post ?_ this)
    rintro (e | b) s' ⟨hs', hp'⟩
    · exact herr e s' hs' hp'
    · exact hok b s' hs' (.inl hp')
  · have hread := hcase.resolve_left hpub
    have hr : Sees h (.ok (v.matchesFile h (s.disk.packages i) moved)) (publicMatches h i v moved)
        s.disk :=
      (sees_rootAttest hroot).bind ((sees_regular rfl hread).bind rfl)
    have hp : ReadsAt (· = .package i) (publicMatches h i v moved) := 
      readsAt_publicMatches (L := (· = .package i)) rfl _ _
    have hwp := hp.wp_answer (B := AtPublic i) (I := I)
      (V := fun d d' => d'.packages i = d.packages i ∧ d'.root = d.root ∧
        d'.pending = d.pending ∧ d'.garbage = d.garbage)
      (careful_reads h _) hA (stable_atPublic h i) hI ?_ (d := s.disk) ?_ hr hs ⟨rfl, rfl, rfl, rfl⟩
    · refine wp_bind (wp_post ?_ hwp)
      rintro (e | b) s' ⟨hs', hcase'⟩
      · rcases hcase' with hp' | ⟨-, heq⟩
        · exact herr e s' hs' hp'
        · cases heq
      · rcases hcase' with hp' | ⟨hsame, heq⟩
        · exact hok b s' hs' (.inl hp')
        · cases heq
          exact hok _ s' hs' (.inr ⟨hsame.1, rfl⟩)
    · rintro c d d' hc ⟨hpk, hroot', hpend, hgarb⟩
      have hwork : ∀ p, d'.work p = d.work p := by rintro (_ | _) <;> assumption
      have hdir : ∀ x, d'.hasDir x = d.hasDir x := by
        rintro (_ | _ | _) <;> simp [Disk.hasDir, hroot', hwork]
      cases c <;> simp_all [exec, Call.At, Disk.lookup]
    · rintro s₁ s₂ ⟨k, g, -, rfl⟩ hsame
      by_cases hk : k = i
      · subst hk
        exact .inr commit_atPublic
      · refine .inl ⟨?_, hsame.2⟩
        rw [commit_packages_of_ne (Ne.symm hk)]
        exact hsame.1

end Reading

end CakeAutorate.UciTransaction
