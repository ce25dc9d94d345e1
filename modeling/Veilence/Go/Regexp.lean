import Veilence.Go.Text

/-!
# Sequences of simple patterns

The part of {lit}`regexp` that a sequence of literals, optional literals and repeated
character classes needs.  A pattern matches at the leftmost place where it can, and there
in the way that a backtracking search finds first: greedy repetitions take as much as they
can, lazy ones as little as they can.

Main results:

- Theorem {lit}`findSubmatch_of_skip`: a place without a match is passed over.
- Theorem {lit}`findSubmatch_eq_none`: no match without the literal that begins it.
- Theorems {lit}`matchPieces_greedy` and {lit}`matchPieces_lazy`: what the repetitions take.
-/

namespace Veilence
namespace Go

/-- One piece of a pattern. -/
inductive Piece where
  | lit (s : GoString)
  | opt (s : GoString)
  | greedy (p : Char → Bool)
  | lazy (p : Char → Bool)

/-- The prefixes of a text in a character class, the shortest first, with what follows. -/
def splits (p : Char → Bool) : GoString → List (GoString × GoString)
  | [] => [([], [])]
  | c :: t => ([], c :: t) :: if p c then (splits p t).map fun r => (c :: r.1, r.2) else []

/-- The ways in which a piece matches at the start of a text, in the order in which they
are tried: what it takes and what follows. -/
def Piece.ways : Piece → GoString → List (GoString × GoString)
  | .lit s, t => if s.isPrefixOf t then [(s, t.drop s.length)] else []
  | .opt s, t => if s.isPrefixOf t then [(s, t.drop s.length), ([], t)] else [([], t)]
  | .greedy p, t => (splits p t).reverse
  | .lazy p, t => splits p t

/-- What the pieces take in the first match at the start of a text. -/
def matchPieces : List Piece → GoString → Option (List GoString)
  | [], _ => some []
  | piece :: pieces, t =>
      (piece.ways t).findSome? fun way => (matchPieces pieces way.2).map (way.1 :: ·)

/-- {lit}`FindStringSubmatch`: what the pieces take in the leftmost match. -/
def findSubmatch (pieces : List Piece) : GoString → Option (List GoString)
  | [] => matchPieces pieces []
  | c :: t =>
      match matchPieces pieces (c :: t) with
      | some taken => some taken
      | none => findSubmatch pieces t

/-! ## Where a pattern matches -/

section

variable {pieces : List Piece} {s t u : GoString}

attribute [local simp] matchPieces findSubmatch splits

/-- A literal matches where it stands. -/
theorem matchPieces_lit :
    matchPieces (.lit s :: pieces) (s ++ t) = (matchPieces pieces t).map (s :: ·) := by
  simp [matchPieces, Piece.ways]

/-- A literal matches nowhere else. -/
theorem matchPieces_lit_of_not (h : ¬s <+: t) : matchPieces (.lit s :: pieces) t = none := by
  have hinit : ¬s.isPrefixOf t = true := fun h' => h (List.isPrefixOf_iff_prefix.mp h')
  rw [matchPieces, Piece.ways, if_neg hinit, List.findSome?_nil]

/-- Places without a match are passed over. -/
theorem findSubmatch_of_skip (hskip : ∀ v, v <:+ u ++ t → t.length < v.length →
    matchPieces pieces v = none) : findSubmatch pieces (u ++ t) = findSubmatch pieces t := by
  induction u with
  | nil => rfl
  | cons c u ih =>
      have hnone : matchPieces pieces (c :: (u ++ t)) = none :=
        hskip _ (List.suffix_refl _) (by simp only [List.length_cons, List.length_append]; omega)
      rw [List.cons_append, findSubmatch, hnone]
      exact ih fun v hv hlt => hskip v (hv.trans (List.suffix_cons c _)) hlt

/-- There is no match without the literal that begins it. -/
theorem findSubmatch_eq_none (hs : s ≠ []) (h : ¬s <:+: t) :
    findSubmatch (.lit s :: pieces) t = none := by
  induction t with
  | nil =>
      rw [findSubmatch]
      refine matchPieces_lit_of_not fun hinit => hs (List.prefix_nil.mp hinit)
  | cons c t ih =>
      have hnone : matchPieces (.lit s :: pieces) (c :: t) = none :=
        matchPieces_lit_of_not fun hinit => h hinit.isInfix
      rw [findSubmatch, hnone]
      exact ih fun hin => h (hin.trans (List.suffix_cons c t).isInfix)

/-- A match at the start is the leftmost one. -/
theorem findSubmatch_of_match {taken : List GoString} (h : matchPieces pieces t = some taken) :
    findSubmatch pieces t = some taken := by
  cases t with
  | nil => exact h
  | cons c t => rw [findSubmatch, h]

end

/-! ## Repetitions and options -/

section

variable {p : Char → Bool} {pieces : List Piece} {s t : GoString} {taken : List GoString}

/-- The splits of a text take a prefix in the class. -/
theorem of_mem_splits {way : GoString × GoString} (hway : way ∈ splits p t) :
    t = way.1 ++ way.2 ∧ ∀ c ∈ way.1, p c = true := by
  induction t generalizing way with
  | nil =>
      have hnil : way = ([], []) := by simpa [splits] using hway
      subst hnil
      exact ⟨rfl, by simp⟩
  | cons c t ih =>
      rw [splits] at hway
      rcases List.mem_cons.mp hway with hnil | hmore
      · subst hnil
        exact ⟨rfl, by simp⟩
      · split_ifs at hmore with hc
        · obtain ⟨r, hr, hrway⟩ := List.mem_map.mp hmore
          obtain ⟨ht, hall⟩ := ih hr
          subst hrway
          exact ⟨by rw [ht, List.cons_append], List.forall_mem_cons.mpr ⟨hc, hall⟩⟩
        · exact absurd hmore List.not_mem_nil

/-- The longest split takes the class as far as it goes. -/
theorem getLast?_splits (hs : ∀ c ∈ s, p c = true) (ht : ∀ c ∈ t.head?, p c = false) :
    (splits p (s ++ t)).getLast? = some (s, t) := by
  induction s with
  | nil =>
      cases t with
      | nil => rfl
      | cons c t =>
          have hc : p c = false := ht c (by simp)
          simp [splits, hc]
  | cons c s ih =>
      have hmore := ih fun d hd => hs d (List.mem_cons_of_mem c hd)
      rw [List.cons_append, splits, if_pos (hs c List.mem_cons_self), List.getLast?_cons,
        List.getLast?_map, hmore]
      rfl

/-- A greedy repetition takes as much as it can. -/
theorem matchPieces_greedy (hs : ∀ c ∈ s, p c = true) (ht : ∀ c ∈ t.head?, p c = false)
    (hmatch : matchPieces pieces t = some taken) :
    matchPieces (.greedy p :: pieces) (s ++ t) = some (s :: taken) := by
  have hlast := getLast?_splits hs ht
  rw [matchPieces, Piece.ways]
  rw [← List.head?_reverse] at hlast
  obtain ⟨more, hways⟩ := List.head?_eq_some_iff.mp hlast
  rw [hways, List.findSome?_cons, hmatch]
  rfl

/-- A greedy repetition fails if the rest fails after every prefix in the class. -/
theorem matchPieces_greedy_eq_none
    (h : ∀ u v, t = u ++ v → (∀ c ∈ u, p c = true) → matchPieces pieces v = none) :
    matchPieces (.greedy p :: pieces) t = none := by
  rw [matchPieces, Piece.ways, List.findSome?_eq_none_iff]
  intro way hway
  obtain ⟨ht, hall⟩ := of_mem_splits (List.mem_reverse.mp hway)
  rw [h way.1 way.2 ht hall, Option.map_none]

/-- A lazy repetition takes as little as it can. -/
theorem matchPieces_lazy (hs : ∀ c ∈ s, p c = true)
    (hshorter : ∀ u v, s = u ++ v → v ≠ [] → matchPieces pieces (v ++ t) = none)
    (hmatch : matchPieces pieces t = some taken) :
    matchPieces (.lazy p :: pieces) (s ++ t) = some (s :: taken) := by
  induction s with
  | nil =>
      cases t with
      | nil => simp [matchPieces, Piece.ways, splits, hmatch]
      | cons c t => simp [matchPieces, Piece.ways, splits, hmatch]
  | cons c s ih =>
      have hrest := ih (fun d hd => hs d (List.mem_cons_of_mem c hd))
        (fun u v huv hne => hshorter (c :: u) v (by rw [huv, List.cons_append]) hne)
      have hnow := hshorter [] (c :: s) rfl (by simp)
      rw [List.cons_append] at hnow
      rw [matchPieces, Piece.ways] at hrest ⊢
      rw [List.cons_append, splits, if_pos (hs c List.mem_cons_self), List.findSome?_cons, hnow,
        Option.map_none]
      dsimp only
      rw [List.findSome?_map]
      -- The ways of the rest, with the first byte put back.
      have hcons : ∀ ways : List (GoString × GoString),
          (ways.findSome? fun way => (matchPieces pieces way.2).map ((c :: way.1) :: ·)) =
            (ways.findSome? fun way => (matchPieces pieces way.2).map (way.1 :: ·)).map
              fun taken => (c :: taken.headD []) :: taken.tail := by
        intro ways
        induction ways with
        | nil => rfl
        | cons way ways ih =>
            rw [List.findSome?_cons, List.findSome?_cons]
            cases matchPieces pieces way.2 with
            | none => simpa using ih
            | some taken => rfl
      have hresult := hcons (splits p (s ++ t))
      rw [hrest] at hresult
      exact hresult

/-- A lazy repetition ends at the latest where the rest matches. -/
theorem exists_matchPieces_lazy (hs : ∀ c ∈ s, p c = true)
    (hmatch : matchPieces pieces t = some taken) :
    ∃ u v taken', s = u ++ v ∧
      matchPieces (.lazy p :: pieces) (s ++ t) = some (u :: taken') := by
  -- By induction on the length: if the rest matches earlier, what comes before is shorter.
  induction hlength : s.length using Nat.strong_induction_on generalizing s t taken with
  | _ n ih =>
      subst hlength
      by_cases hearlier : ∃ u v, s = u ++ v ∧ v ≠ [] ∧ (matchPieces pieces (v ++ t)).isSome
      · obtain ⟨u, v, huv, hne, hsome⟩ := hearlier
        obtain ⟨taken', htaken'⟩ := Option.isSome_iff_exists.mp hsome
        have hshort : u.length < s.length := by
          have := List.length_pos_iff.mpr hne
          rw [huv, List.length_append]
          omega
        obtain ⟨u', v', result, hu, hresult⟩ := ih u.length hshort
          (fun c hc => hs c (by rw [huv]; exact List.mem_append_left v hc)) htaken' rfl
        refine ⟨u', v' ++ v, result, ?_, ?_⟩
        · rw [huv, hu, List.append_assoc]
        · rw [huv, List.append_assoc]
          exact hresult
      · refine ⟨s, [], taken, (List.append_nil s).symm, matchPieces_lazy hs ?_ hmatch⟩
        intro u v huv hne
        by_contra hsome
        exact hearlier ⟨u, v, huv, hne, Option.isSome_iff_ne_none.mpr hsome⟩

/-- An optional literal is taken where the rest matches after it. -/
theorem matchPieces_opt (hmatch : matchPieces pieces t = some taken) :
    matchPieces (.opt s :: pieces) (s ++ t) = some (s :: taken) := by
  have hinit : s.isPrefixOf (s ++ t) = true := by simp
  rw [matchPieces, Piece.ways, if_pos hinit, List.findSome?_cons, List.drop_left, hmatch]
  rfl

/-- An optional literal that does not stand there is passed over. -/
theorem matchPieces_opt_of_not (h : ¬s <+: t) (hmatch : matchPieces pieces t = some taken) :
    matchPieces (.opt s :: pieces) t = some ([] :: taken) := by
  have hinit : ¬s.isPrefixOf t = true := fun h' => h (List.isPrefixOf_iff_prefix.mp h')
  rw [matchPieces, Piece.ways, if_neg hinit, List.findSome?_cons, hmatch]
  rfl

/-- An optional literal fails if the rest fails with it and without it. -/
theorem matchPieces_opt_eq_none (hnone : matchPieces pieces t = none)
    (h : ∀ v, t = s ++ v → matchPieces pieces v = none) :
    matchPieces (.opt s :: pieces) t = none := by
  rw [matchPieces, Piece.ways]
  split_ifs with hinit
  · obtain ⟨v, hv⟩ := List.isPrefixOf_iff_prefix.mp hinit
    have hdrop : t.drop s.length = v := by rw [← hv, List.drop_left]
    simp [hdrop, h v hv.symm, hnone]
  · simp [hnone]

end

end Go
end Veilence
