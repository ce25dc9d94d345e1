import Veilence.Pipeline.Grounded

/-!
# Releases that are completed without a diff

{lit}`ProcessRelease` takes a release for the first tracked version of its package when
it finds no completed release with an earlier publish time, and completes it without a
diff.  What it finds depends on how far the workers are with the other releases, and a
failing lookup counts as finding nothing.  As long as lookups come back empty only for
the first release of a package, at most one release of the package skips the analysis.

Main results:

- Theorem {lit}`baselines_of_run`: so it is in every run whose empty lookups are of this
  kind.
- Theorem {lit}`two_baselines`: two workers that take the newer of two releases first
  complete both without a diff.
-/

namespace Veilence
namespace Pipeline

open Go Foundation

/-! ## Releases of a package -/

/-- The package and the publish time of a release. -/
def infoOf (s : State) (releaseID : Nat) : Option (Nat × Int) :=
  (s.releases.get? releaseID).map fun release => (release.packageID, release.publishedAt)

/-- The releases belong to the same package. -/
def SamePackage (s : State) (r r' : Nat) : Prop :=
  ∃ packageID publishedAt publishedAt', infoOf s r = some (packageID, publishedAt) ∧
    infoOf s r' = some (packageID, publishedAt')

/-- A release of the same package with an earlier publish time was created before. -/
def HasEarlier (s : State) (r : Nat) : Prop :=
  ∃ r' < r, ∃ packageID publishedAt publishedAt',
    infoOf s r = some (packageID, publishedAt) ∧
      infoOf s r' = some (packageID, publishedAt') ∧ publishedAt' < publishedAt

theorem SamePackage.symm {s : State} {r r' : Nat} (hsame : SamePackage s r r') :
    SamePackage s r' r := by
  obtain ⟨packageID, publishedAt, publishedAt', hr, hr'⟩ := hsame
  exact ⟨packageID, publishedAt', publishedAt, hr', hr⟩

/-- A stored release is below the counter. -/
theorem lt_next_of_info {s : State} {r : Nat} {info : Nat × Int}
    (hinfo : infoOf s r = some info) : r < s.releases.next := by
  obtain ⟨release, hrelease, _⟩ := Option.map_eq_some_iff.mp hinfo
  exact Ledger.lt_of_get? hrelease

/-- No call changes the package or the publish time of a release. -/
theorem info_of_exec {s : State} {c : Call} {r : Nat} {info : Nat × Int}
    (hinfo : infoOf (s.exec c).1 r = some info) :
    infoOf s r = some info ∨ r = s.releases.next := by
  obtain ⟨release, hrelease, rfl⟩ := Option.map_eq_some_iff.mp hinfo
  rcases release_of_exec hrelease with
    ⟨before, hbefore, rfl | ⟨_, _, rfl⟩ | ⟨_, _, rfl⟩⟩ | ⟨_, hr⟩
  · exact Or.inl (by simp [infoOf, hbefore])
  · exact Or.inl (by simp [infoOf, hbefore])
  · exact Or.inl (by simp [infoOf, hbefore])
  · exact Or.inr hr

theorem info_exec {s : State} {r : Nat} {info : Nat × Int} (hinfo : infoOf s r = some info)
    (c : Call) : infoOf (s.exec c).1 r = some info := by
  have hlt := lt_next_of_info hinfo
  have hstored : (Fact.release r).Holds s := by
    obtain ⟨release, hrelease, _⟩ := Option.map_eq_some_iff.mp hinfo
    exact Option.isSome_iff_exists.mpr ⟨release, hrelease⟩
  obtain ⟨release, hrelease⟩ := Option.isSome_iff_exists.mp (holds_exec hstored c)
  have hafter : infoOf (s.exec c).1 r = some (release.packageID, release.publishedAt) := by
    simp only [infoOf]
    rw [hrelease]
    rfl
  rcases info_of_exec hafter with hbefore | hr
  · rw [hafter, ← hbefore, hinfo]
  · omega

/-- A release is recorded when it is completed while it has no diff. -/
theorem baselines_of_exec {s : State} {c : Call} {r : Nat}
    (hr : r ∈ (s.exec c).1.baselines) :
    r ∈ s.baselines ∨ (c = .updateReleaseStatus r .completed ∧ ¬HasDiff s r) := by
  cases c with
  | updateReleaseStatus id status =>
      simp only [State.exec, State.setStatus] at hr
      split_ifs at hr with hcond
      · rcases List.mem_cons.mp hr with rfl | hr
        · exact Or.inr ⟨by rw [hcond.1], hcond.2.2⟩
        · exact Or.inl hr
      · exact Or.inl hr
  | _ => exact Or.inl hr

/-- Diffs are not removed. -/
theorem hasDiff_exec {s : State} {r : Nat} (hr : HasDiff s r) (c : Call) :
    HasDiff (s.exec c).1 r := by
  obtain ⟨d, hd, hrelease⟩ := hr
  have hstored : (Fact.diff d).Holds s := hd
  exact ⟨d, holds_exec hstored c, hrelease⟩

/-! ## The runs -/

/-- The operation at `i` has looked for a previous release in vain and completes its
release next. -/
def Completing (w : PipelineWorld) (i r : Nat) : Prop :=
  ∃ jobID k failed, w.threads i =
    some ⟨.processRelease jobID r, .cmd (.updateReleaseStatus r .completed) k, failed⟩

/-- The release has a diff already, or it is the first of its package: none with an
earlier publish time was created before it, and no other release of the package was
completed without a diff or is about to be. -/
def FirstOf (w : PipelineWorld) (r : Nat) : Prop :=
  HasDiff w.store r ∨
    (¬HasEarlier w.store r ∧ ∀ r' ≠ r, SamePackage w.store r r' →
      r' ∉ w.store.baselines ∧ ∀ j, Completing w j r' → HasDiff w.store r')

/-- The lookup of a previous release fails or finds none only for the first release of a
package. -/
def InOrder (w : PipelineWorld) : Label Op → Prop
  | .exec i => ∀ jobID r packageID before k failed, w.threads i =
      some ⟨.processRelease jobID r,
        .cmd (.findPreviousCompletedRelease packageID before) k, failed⟩ →
      w.store.previousCompleted packageID before = none → FirstOf w r
  | .fail i => ∀ jobID r packageID before k failed, w.threads i =
      some ⟨.processRelease jobID r,
        .cmd (.findPreviousCompletedRelease packageID before) k, failed⟩ → FirstOf w r
  | _ => True

/-! ## The invariant -/

/-- No release precedes the release, and it is the only one of its package that was
completed without a diff or is about to be. -/
structure Sole (w : PipelineWorld) (r : Nat) : Prop where
  stored : (infoOf w.store r).isSome = true
  first : ¬HasEarlier w.store r
  baselines : ∀ r' ∈ w.store.baselines, SamePackage w.store r r' → r' = r
  completing : ∀ j r', Completing w j r' → ¬HasDiff w.store r' → SamePackage w.store r r' →
    r' = r

/-- The releases that were completed without a diff, or are about to be, are the first of
their packages. -/
structure Ordered (w : PipelineWorld) : Prop where
  completing : ∀ i r, Completing w i r → ¬HasDiff w.store r → Sole w r
  baselines : ∀ r ∈ w.store.baselines, (infoOf w.store r).isSome = true ∧
    ¬HasEarlier w.store r ∧ ∀ r' ∈ w.store.baselines, SamePackage w.store r r' → r' = r

/-- The invariant holds before the first operation. -/
theorem ordered_start (packages : Table Nat Package) (outside : Outside) :
    Ordered (start packages outside) where
  completing := by simp [Completing, start, World.initial]
  baselines := by simp [start, World.initial, State.initial]

section Preservation

variable {cfg : Config} {vain : Nat → Bool} {w w' : PipelineWorld} {i r : Nat}

/-- Only a lookup in vain lets an operation complete a release without a diff. -/
theorem Grounds.vain_of_completing (hgrounds : Grounds vain w) (hcompleting : Completing w i r)
    (hdiff : ¬HasDiff w.store r) : vain i = true ∧ (infoOf w.store r).isSome = true := by
  obtain ⟨jobID, k, failed, hthread⟩ := hcompleting
  rcases (hgrounds.bodies i _ hthread).1 with ⟨d, hd, hrelease⟩ | ⟨hvain, hstored, _⟩
  · exact absurd ⟨d, hd, hrelease⟩ hdiff
  · obtain ⟨release, hget⟩ := Option.isSome_iff_exists.mp hstored
    exact ⟨hvain, by simp [infoOf, hget]⟩

/-- What a step may change: releases keep their package and publish time and new ones
come last, diffs stay, the only release that is newly recorded was being completed, and
the only operation that may start to complete a release without a diff is the one at `i`,
with the first release of a package. -/
structure Extends (w w' : PipelineWorld) (i : Nat) : Prop where
  info : ∀ r info, infoOf w.store r = some info → infoOf w'.store r = some info
  info_back : ∀ r info, infoOf w'.store r = some info →
    infoOf w.store r = some info ∨ w.store.releases.next ≤ r
  diffs : ∀ r, HasDiff w.store r → HasDiff w'.store r
  baselines : ∀ r ∈ w'.store.baselines,
    r ∈ w.store.baselines ∨ (Completing w i r ∧ ¬HasDiff w.store r)
  others : ∀ j r, j ≠ i → Completing w' j r → Completing w j r
  own : ∀ r, Completing w' i r → ¬HasDiff w'.store r →
    (infoOf w.store r).isSome = true ∧ ¬HasEarlier w.store r ∧
      ∀ r' ≠ r, SamePackage w.store r r' →
        r' ∉ w.store.baselines ∧ ∀ j, Completing w j r' → HasDiff w.store r'

/-- The package of a stored release is as before. -/
theorem Extends.info_eq (hext : Extends w w' i) {info : Nat × Int}
    (hstored : (infoOf w.store r).isSome = true) (hinfo : infoOf w'.store r = some info) :
    infoOf w.store r = some info := by
  obtain ⟨before, hbefore⟩ := Option.isSome_iff_exists.mp hstored
  rw [hext.info r before hbefore] at hinfo
  rw [hbefore, hinfo]

/-- Stored releases of the same package were so before. -/
theorem Extends.samePackage (hext : Extends w w' i) {r' : Nat}
    (hr : (infoOf w.store r).isSome = true) (hr' : (infoOf w.store r').isSome = true)
    (hsame : SamePackage w'.store r r') : SamePackage w.store r r' := by
  obtain ⟨packageID, publishedAt, publishedAt', hinfo, hinfo'⟩ := hsame
  exact ⟨packageID, publishedAt, publishedAt', hext.info_eq hr hinfo, hext.info_eq hr' hinfo'⟩

/-- Later releases do not precede a stored one. -/
theorem Extends.not_hasEarlier (hext : Extends w w' i)
    (hr : (infoOf w.store r).isSome = true) (hfirst : ¬HasEarlier w.store r) :
    ¬HasEarlier w'.store r := by
  rintro ⟨r', hlt, packageID, publishedAt, publishedAt', hinfo, hinfo', hearlier⟩
  have hbefore := hext.info_eq hr hinfo
  have hnext := lt_next_of_info hbefore
  rcases hext.info_back r' _ hinfo' with hbefore' | hle
  · exact hfirst ⟨r', hlt, packageID, publishedAt, publishedAt', hbefore, hbefore', hearlier⟩
  · omega

/-- A release that was completed without a diff, or is about to be, is stored. -/
theorem Ordered.stored (hordered : Ordered w)
    (hr : r ∈ w.store.baselines ∨ (Completing w i r ∧ ¬HasDiff w.store r)) :
    (infoOf w.store r).isSome = true := by
  rcases hr with hr | ⟨hcompleting, hdiff⟩
  · exact (hordered.baselines r hr).1
  · exact (hordered.completing i r hcompleting hdiff).stored

/-- Such a step keeps the invariant. -/
theorem Ordered.extend (hordered : Ordered w) (hext : Extends w w' i) : Ordered w' := by
  have hstay : ∀ r, (infoOf w.store r).isSome = true → (infoOf w'.store r).isSome = true := by
    intro r hr
    obtain ⟨info, hinfo⟩ := Option.isSome_iff_exists.mp hr
    simp [hext.info r info hinfo]
  -- A release that is sole stays sole, whoever starts to complete another one.
  have hsole : ∀ r, Sole w r →
      (∀ r', Completing w' i r' → ¬HasDiff w'.store r' → SamePackage w.store r r' → r' = r) →
      Sole w' r := by
    intro r hr hown
    refine ⟨hstay r hr.stored, hext.not_hasEarlier hr.stored hr.first, ?_, ?_⟩
    · intro r' hr' hsame
      have hold := hext.baselines r' hr'
      have hsame := hext.samePackage hr.stored (hordered.stored hold) hsame
      rcases hold with hold | ⟨hcompleting, hdiff⟩
      · exact hr.baselines r' hold hsame
      · exact hr.completing i r' hcompleting hdiff hsame
    · intro j r' hcompleting hdiff hsame
      by_cases hj : j = i
      · subst hj
        obtain ⟨hstored, _⟩ := hext.own r' hcompleting hdiff
        exact hown r' hcompleting hdiff (hext.samePackage hr.stored hstored hsame)
      · have hbefore := hext.others j r' hj hcompleting
        have hnone : ¬HasDiff w.store r' := fun hhas => hdiff (hext.diffs r' hhas)
        have hstored := (hordered.completing j r' hbefore hnone).stored
        exact hr.completing j r' hbefore hnone (hext.samePackage hr.stored hstored hsame)
  refine ⟨fun j r hcompleting hdiff => ?_, fun r hr => ?_⟩
  · by_cases hj : j = i
    · subst hj
      obtain ⟨hstored, hfirst, hothers⟩ := hext.own r hcompleting hdiff
      refine hsole r ⟨hstored, hfirst, fun r' hr' hsame => ?_, fun j' r' hc hd hsame => ?_⟩ ?_
      · by_contra hne
        exact (hothers r' hne hsame).1 hr'
      · by_contra hne
        exact hd ((hothers r' hne hsame).2 j' hc)
      · rintro r' ⟨jobID', k', failed', hthread'⟩ _ _
        obtain ⟨jobID, k, failed, hthread⟩ := hcompleting
        rw [hthread] at hthread'
        simp only [Option.some.injEq, Thread.mk.injEq, Op.processRelease.injEq] at hthread'
        exact hthread'.1.2.symm
    · have hbefore := hext.others j r hj hcompleting
      have hnone : ¬HasDiff w.store r := fun hhas => hdiff (hext.diffs r hhas)
      refine hsole r (hordered.completing j r hbefore hnone) ?_
      intro r' hcompleting' hdiff' hsame
      obtain ⟨_, _, hothers⟩ := hext.own r' hcompleting' hdiff'
      by_contra hne
      exact hnone ((hothers r (Ne.symm hne) hsame.symm).2 j hbefore)
  · have hold := hext.baselines r hr
    have hstored := hordered.stored hold
    have hfirst : ¬HasEarlier w.store r := by
      rcases hold with hold | ⟨hcompleting, hdiff⟩
      · exact (hordered.baselines r hold).2.1
      · exact (hordered.completing i r hcompleting hdiff).first
    refine ⟨hstay r hstored, hext.not_hasEarlier hstored hfirst, fun r' hr' hsame => ?_⟩
    have hold' := hext.baselines r' hr'
    have hsame := hext.samePackage hstored (hordered.stored hold') hsame
    rcases hold with hold | ⟨hcompleting, hdiff⟩
    · rcases hold' with hold' | ⟨hcompleting', hdiff'⟩
      · exact (hordered.baselines r hold).2.2 r' hold' hsame
      · exact ((hordered.completing i r' hcompleting' hdiff').baselines r hold hsame.symm).symm
    · rcases hold' with hold' | ⟨hcompleting', hdiff'⟩
      · exact (hordered.completing i r hcompleting hdiff).baselines r' hold' hsame
      · exact (hordered.completing i r hcompleting hdiff).completing i r' hcompleting' hdiff' hsame

/-! ## Steps -/

/-- A step that leaves the rows alone and starts no completion extends the world. -/
theorem Extends.frame (hreleases : w'.store.releases = w.store.releases)
    (hdiffs : w'.store.diffs = w.store.diffs) (hbaselines : w'.store.baselines = w.store.baselines)
    (hothers : ∀ j r, j ≠ i → Completing w' j r → Completing w j r)
    (hown : ∀ r, Completing w' i r → ¬HasDiff w'.store r → FirstOf w r ∧
      (infoOf w.store r).isSome = true) : Extends w w' i where
  info r info hinfo := by
    unfold infoOf
    rw [hreleases]
    exact hinfo
  info_back r info hinfo := by
    unfold infoOf at hinfo
    rw [hreleases] at hinfo
    exact Or.inl hinfo
  diffs r hr := by
    unfold HasDiff
    rw [hdiffs]
    exact hr
  baselines r hr := by
    rw [hbaselines] at hr
    exact Or.inl hr
  others := hothers
  own r hcompleting hdiff := by
    obtain ⟨hfirst, hstored⟩ := hown r hcompleting hdiff
    cases hfirst with
    | inl hhas =>
        unfold HasDiff at hdiff
        rw [hdiffs] at hdiff
        exact absurd hhas hdiff
    | inr hfirst => exact ⟨hstored, hfirst⟩

/-- Operations elsewhere are as before. -/
theorem completing_of_threads {threads : Nat → Option (Thread Op Call Answer Result)} {j : Nat}
    (hthreads : w'.threads j = threads j) (hbefore : threads j = w.threads j)
    (hcompleting : Completing w' j r) : Completing w j r := by
  unfold Completing at hcompleting ⊢
  rw [← hbefore, ← hthreads]
  exact hcompleting

@[simp]
theorem baselines_setRunning (s : State) (op : Op) (running : Bool) :
    (s.setRunning op running).baselines = s.baselines := by
  unfold State.setRunning
  split <;> rfl

@[simp]
theorem baselines_done (s : State) (op : Op) (result : Result) :
    (s.done op result).baselines = s.baselines := by
  cases result with
  | error message => exact baselines_setRunning s op false
  | ok =>
      unfold State.done
      dsimp only
      split <;> rfl

/-- An operation that has ended completes nothing. -/
theorem not_completing_of_none (hthread : w.threads i = none) : ¬Completing w i r := by
  rintro ⟨jobID, k, failed, hcompleting⟩
  rw [hthread] at hcompleting
  cases hcompleting

/-- A lookup in vain is for the first release of a package. -/
theorem firstOf_of_exec {c : Call} {k : Option (Answer c) → Body Result} {jobID : Nat}
    {failed : Bool}
    (hthread : w.threads i = some ⟨.processRelease jobID r, .cmd c k, failed⟩)
    (hok : InOrder w (.exec i)) (hvain : vainAfter c (some (w.store.exec c).2) = true) :
    FirstOf w r ∧ (w.store.exec c).1 = w.store := by
  cases c with
  | findPreviousCompletedRelease packageID before =>
      refine ⟨hok jobID r packageID before k failed hthread ?_, rfl⟩
      cases hprevious : w.store.previousCompleted packageID before with
      | none => rfl
      | some row => simp [vainAfter, State.exec, hprevious] at hvain
  | _ => cases hvain

/-- A failing lookup is for the first release of a package. -/
theorem firstOf_of_fail {c : Call} {k : Option (Answer c) → Body Result} {jobID : Nat}
    {failed : Bool}
    (hthread : w.threads i = some ⟨.processRelease jobID r, .cmd c k, failed⟩)
    (hok : InOrder w (.fail i)) (hvain : vainAfter c none = true) : FirstOf w r := by
  cases c with
  | findPreviousCompletedRelease packageID before =>
      exact hok jobID r packageID before k failed hthread
  | _ => cases hvain

/-- The release that an operation completes is the one it processes. -/
theorem op_of_completing {t : Thread Op Call Answer Result}
    (hthread : w.threads i = some t) (hcompleting : Completing w i r) :
    ∃ jobID, t.op = .processRelease jobID r := by
  obtain ⟨jobID, k, failed, heq⟩ := hcompleting
  rw [hthread] at heq
  cases heq
  exact ⟨jobID, rfl⟩

/-- A step whose lookups in vain are for first releases keeps the invariant. -/
theorem Ordered.step (hordered : Ordered w) (hgrounds : Grounds vain w) {l : Label Op}
    (hstep : (pipelineSystem cfg).Step w l w') (hok : InOrder w l) : Ordered w' := by
  have hafter := hgrounds.step hstep
  cases hstep with
  | @start i op hfree henabled =>
      apply hordered.extend (i := i)
      apply Extends.frame
      · exact releases_setRunning w.store op true
      · exact diffs_setRunning w.store op true
      · exact baselines_setRunning w.store op true
      · intro j r hj
        exact completing_of_threads (w.setThread_of_ne _ hj) rfl
      · intro r hcompleting hdiff
        obtain ⟨hvain, _⟩ := hafter.vain_of_completing hcompleting hdiff
        simp [vainStep] at hvain
  | @exec i op c k failed hthread hlive =>
      apply hordered.extend (i := i)
      refine ⟨fun r info hinfo => info_exec hinfo c, fun r info hinfo => ?_,
        fun r hr => hasDiff_exec hr c, fun r hr => ?_, fun j r hj => ?_, ?_⟩
      · cases info_of_exec hinfo with
        | inl hbefore => exact Or.inl hbefore
        | inr hr => exact Or.inr (by omega)
      · cases baselines_of_exec hr with
        | inl hbefore => exact Or.inl hbefore
        | inr hnew =>
            obtain ⟨rfl, hdiff⟩ := hnew
            refine Or.inr ⟨?_, hdiff⟩
            rcases (hgrounds.bodies i _ hthread).1 with ⟨d, hd, hrelease⟩ | ⟨_, _, jobID, hop⟩
            · exact absurd ⟨d, hd, hrelease⟩ hdiff
            · dsimp only at hop
              subst hop
              exact ⟨jobID, k, failed, hthread⟩
      · exact completing_of_threads (w.setThread_of_ne _ hj) rfl
      · intro r hcompleting hdiff
        obtain ⟨hvain, hstored⟩ := hafter.vain_of_completing hcompleting hdiff
        obtain ⟨jobID, hop⟩ := op_of_completing (w.setThread_self _ _) hcompleting
        dsimp only at hop
        subst hop
        simp only [vainStep, hthread, Function.update_self] at hvain
        obtain ⟨hfirst, hsame⟩ := firstOf_of_exec hthread hok hvain
        change (infoOf (w.store.exec c).1 r).isSome = true at hstored
        change ¬HasDiff (w.store.exec c).1 r at hdiff
        rw [hsame] at hstored hdiff
        cases hfirst with
        | inl hhas => exact absurd hhas hdiff
        | inr hfirst => exact ⟨hstored, hfirst⟩
  | @fail i op c k failed hthread hfallible =>
      apply hordered.extend (i := i)
      refine Extends.frame rfl rfl rfl (fun j r hj => ?_) fun r hcompleting hdiff => ?_
      · exact completing_of_threads (w.setThread_of_ne _ hj) rfl
      · obtain ⟨hvain, hstored⟩ := hafter.vain_of_completing hcompleting hdiff
        obtain ⟨jobID, hop⟩ := op_of_completing (w.setThread_self _ _) hcompleting
        dsimp only at hop
        subst hop
        simp only [vainStep, hthread, Function.update_self] at hvain
        exact ⟨firstOf_of_fail hthread hok hvain, hstored⟩
  | @stop i t hthread =>
      apply hordered.extend (i := i)
      apply Extends.frame
      · exact releases_setRunning w.store t.op false
      · exact diffs_setRunning w.store t.op false
      · exact baselines_setRunning w.store t.op false
      · intro j r hj
        exact completing_of_threads (w.setThread_of_ne _ hj) rfl
      · intro r hcompleting
        exact absurd hcompleting (not_completing_of_none (w.setThread_self _ _))
  | @finish i op a failed hthread =>
      apply hordered.extend (i := i)
      apply Extends.frame
      · exact releases_done w.store op a
      · exact diffs_done w.store op a
      · exact baselines_done w.store op a
      · intro j r hj
        exact completing_of_threads (w.setThread_of_ne _ hj) rfl
      · intro r hcompleting
        exact absurd hcompleting (not_completing_of_none (w.setThread_self _ _))
  | @env store henv =>
      have hsame : store.releases = w.store.releases ∧ store.diffs = w.store.diffs ∧
          store.baselines = w.store.baselines := by
        cases henv with
        | outside outside => exact ⟨rfl, rfl, rfl⟩
        | package hnew pkg => exact ⟨rfl, rfl, rfl⟩
      obtain ⟨hreleases, hdiffs, hbaselines⟩ := hsame
      apply hordered.extend (i := 0)
      refine Extends.frame hreleases hdiffs hbaselines (fun j r _ hcompleting => hcompleting) ?_
      intro r hcompleting hdiff
      have hnone : ¬HasDiff w.store r := by
        unfold HasDiff at hdiff ⊢
        rw [← hdiffs]
        exact hdiff
      have hsole := hordered.completing 0 r hcompleting hnone
      refine ⟨Or.inr ⟨hsole.first, fun r' hne hpackage => ⟨fun hr' => ?_, fun j hj => ?_⟩⟩,
        hsole.stored⟩
      · exact hne (hsole.baselines r' hr' hpackage)
      · by_contra hlacks
        exact hne (hsole.completing j r' hj hlacks hpackage)

end Preservation

/-- Every state of a run keeps the invariant. -/
theorem ordered_of_run {cfg : Config} {packages : Table Nat Package} {outside : Outside}
    {w : PipelineWorld} (hrun : Run (pipelineSystem cfg).Step InOrder (start packages outside) w) :
    Ordered w := by
  have hinv : ∃ vain, Grounds vain w ∧ Ordered w := by
    refine hrun.invariant (I := fun w => ∃ vain, Grounds vain w ∧ Ordered w) ?_ ?_
    · exact ⟨_, grounds_start packages outside, ordered_start packages outside⟩
    · rintro w l w' ⟨vain, hgrounds, hordered⟩ hok hstep
      exact ⟨_, hgrounds.step hstep, hordered.step hgrounds hstep hok⟩
  obtain ⟨_, _, hordered⟩ := hinv
  exact hordered

/-- In a run whose lookups in vain are for first releases, at most one release of a
package is completed without a diff, and no release with an earlier publish time was
created before it. -/
theorem baselines_of_run {cfg : Config} {packages : Table Nat Package} {outside : Outside}
    {w : PipelineWorld} (hrun : Run (pipelineSystem cfg).Step InOrder (start packages outside) w) :
    ∀ r ∈ w.store.baselines, ¬HasEarlier w.store r ∧
      ∀ r' ∈ w.store.baselines, SamePackage w.store r r' → r' = r := by
  intro r hr
  obtain ⟨_, hfirst, hsole⟩ := (ordered_of_run hrun).baselines r hr
  exact ⟨hfirst, hsole⟩

/-! ## Runs with one and with two versions -/

/-- The poll and the processing of the release that it finds. -/
def firstReleaseLabels : List (Label Op) :=
  [.start 0 (.poll 0 onePackage), .exec 0, .exec 0, .exec 0, .exec 0, .exec 0, .finish 0,
    .start 0 (.processRelease 0 0), .exec 0, .exec 0, .exec 0, .exec 0, .finish 0]

/-- At most one release is stored. -/
def hasOneRelease (w : PipelineWorld) (_ : Label Op) : Bool :=
  w.store.releases.next ≤ 1

/-- Then every lookup is for a first release. -/
theorem firstOf_of_hasOneRelease {w : PipelineWorld} {l : Label Op}
    (hone : hasOneRelease w l = true) (r : Nat) : FirstOf w r := by
  have hnext : w.store.releases.next ≤ 1 := of_decide_eq_true hone
  have hzero : ∀ r info, infoOf w.store r = some info → r = 0 := by
    intro r info hinfo
    have hlt := lt_next_of_info hinfo
    omega
  refine Or.inr ⟨?_, fun r' hne hsame => ?_⟩
  · rintro ⟨r', hlt, packageID, publishedAt, publishedAt', hinfo, _, _⟩
    have hr := hzero r _ hinfo
    omega
  · obtain ⟨packageID, publishedAt, publishedAt', hinfo, hinfo'⟩ := hsame
    have hr := hzero r _ hinfo
    have hr' := hzero r' _ hinfo'
    omega

theorem inOrder_of_hasOneRelease (w : PipelineWorld) (l : Label Op)
    (hone : hasOneRelease w l = true) : InOrder w l := by
  cases l with
  | exec i =>
      intro jobID r _ _ _ _ _ _
      exact firstOf_of_hasOneRelease hone r
  | fail i =>
      intro jobID r _ _ _ _ _
      exact firstOf_of_hasOneRelease hone r
  | _ => trivial

/-- The only release of a package is completed without a diff. -/
theorem baselines_of_run_firstRelease :
    ∃ w, Run (pipelineSystem defaultConfig).Step InOrder monitoring w ∧
      w.store.baselines = [0] ∧ ∀ r ∈ w.store.baselines, ¬HasEarlier w.store r ∧
        ∀ r' ∈ w.store.baselines, SamePackage w.store r r' → r' = r := by
  obtain ⟨w, hsteps, htest⟩ := System.exists_of_steps? (pipelineSystem defaultConfig)
    hasOneRelease monitoring firstReleaseLabels (fun w => w.store.baselines = [0])
    (by decide +kernel)
  have hrun := System.run_of_steps? inOrder_of_hasOneRelease hsteps
  exact ⟨w, hrun, of_decide_eq_true htest, baselines_of_run hrun⟩

/-- The second version of the package. -/
def secondVersion : RegistryVersionInfo :=
  ⟨"1.0.1".toList, 2, "p/1.0.1".toList⟩

/-- The pipeline when the registry lists two versions, the newer first. -/
def monitoringTwo : PipelineWorld :=
  start (.single 0 onePackage)
    { oneVersionOutside with listed := fun _ _ => [secondVersion, firstVersion] }

/-- The poll creates both releases; then workers process the newer one first. -/
def newerFirstLabels : List (Label Op) :=
  [.start 0 (.poll 0 onePackage), .exec 0, .exec 0, .exec 0, .exec 0, .exec 0, .exec 0, .exec 0,
    .exec 0, .finish 0,
    .start 0 (.processRelease 1 1), .exec 0, .exec 0, .exec 0, .exec 0, .finish 0,
    .start 0 (.processRelease 0 0), .exec 0, .exec 0, .exec 0, .exec 0, .finish 0]

/-- Both releases of the package are completed without a diff, also the one that has an
earlier release. -/
theorem two_baselines :
    ∃ w, Run (pipelineSystem defaultConfig).Step (fun _ _ => True) monitoringTwo w ∧
      0 ∈ w.store.baselines ∧ 1 ∈ w.store.baselines ∧ SamePackage w.store 0 1 ∧
      HasEarlier w.store 1 := by
  obtain ⟨w, hsteps, htest⟩ := System.exists_of_steps? (pipelineSystem defaultConfig)
    (fun _ _ => true) monitoringTwo newerFirstLabels
    (fun w => w.store.baselines = [0, 1] ∧ infoOf w.store 0 = some (0, 1) ∧
      infoOf w.store 1 = some (0, 2))
    (by decide +kernel)
  obtain ⟨hbaselines, hfirst, hsecond⟩ := of_decide_eq_true htest
  refine ⟨w, System.run_of_steps? (fun _ _ _ => trivial) hsteps, ?_, ?_, ?_, ?_⟩
  · simp [hbaselines]
  · simp [hbaselines]
  · exact ⟨0, 1, 2, hfirst, hsecond⟩
  · exact ⟨0, by omega, 0, 2, 1, hsecond, hfirst, by omega⟩

end Pipeline
end Veilence
