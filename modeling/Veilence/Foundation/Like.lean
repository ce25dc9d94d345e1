import Mathlib

/-!
# Patterns with wildcards

Patterns in which one symbol stands for any text, one for any character, and a third one takes the
meaning away from the character after it.  A text is searched for with a pattern that has the
symbol for any text at both ends, and some characters of the text escaped.

Main results:

- Theorem {lit}`like_text_iff`: a text that is escaped enough is found where it is a part.
- Theorem {lit}`exact_iff`: a text is found exactly where it is a part if and only if all of its
  special characters are escaped.
-/

namespace Veilence
namespace Foundation
namespace Like

/-- The symbols of a pattern: the one that escapes, and those for any text and any character. -/
structure Symbols (α : Type*) where
  escape : α
  many : α
  one : α
  escape_ne_many : escape ≠ many
  escape_ne_one : escape ≠ one
  many_ne_one : many ≠ one

/-- What a pattern asks for next. -/
inductive Piece (α : Type*) where
  | char (c : α)
  | many
  | one

variable {α : Type*} [DecidableEq α] (sym : Symbols α)

/-- The character is one of the symbols. -/
def Symbols.Special (c : α) : Prop :=
  c = sym.escape ∨ c = sym.many ∨ c = sym.one

instance (c : α) : Decidable (sym.Special c) :=
  inferInstanceAs (Decidable (_ ∨ _ ∨ _))

/-- The pieces of a pattern.  A pattern that ends in the symbol that escapes is an error in SQL;
no pattern here does. -/
def pieces : List α → List (Piece α)
  | [] => []
  | c :: rest =>
      if c = sym.escape then
        match rest with
        | [] => [.char c]
        | d :: rest => .char d :: pieces rest
      else if c = sym.many then .many :: pieces rest
      else if c = sym.one then .one :: pieces rest
      else .char c :: pieces rest

/-- Whether a text is what the pieces ask for. -/
def matchesPieces : List (Piece α) → List α → Bool
  | [], text => text.isEmpty
  | .char _ :: _, [] => false
  | .char c :: rest, d :: text => c = d && matchesPieces rest text
  | .many :: rest, text => text.tails.any (matchesPieces rest)
  | .one :: _, [] => false
  | .one :: rest, _ :: text => matchesPieces rest text

/-- {lit}`text LIKE pattern`. -/
def like (pattern text : List α) : Bool :=
  matchesPieces (pieces sym pattern) text

/-- A text in which some characters are escaped. -/
def escaped (p : α → Bool) (text : List α) : List α :=
  text.flatMap fun c => if p c then [sym.escape, c] else [c]

/-- The pattern for the texts that contain a text. -/
def containing (body : List α) : List α :=
  sym.many :: (body ++ [sym.many])

/-! ## The pieces of a pattern -/

section Escaped

omit [DecidableEq α]

theorem escaped_cons_of_pos {p : α → Bool} {c : α} (hc : p c = true) (text : List α) :
    escaped sym p (c :: text) = sym.escape :: c :: escaped sym p text := by
  unfold escaped
  rw [List.flatMap_cons, if_pos hc]
  rfl

theorem escaped_cons_of_not {p : α → Bool} {c : α} (hc : ¬p c = true) (text : List α) :
    escaped sym p (c :: text) = c :: escaped sym p text := by
  unfold escaped
  rw [List.flatMap_cons, if_neg hc]
  rfl

end Escaped

section Pieces

variable {sym}

attribute [local simp] pieces matchesPieces

theorem pieces_escape (d : α) (rest : List α) :
    pieces sym (sym.escape :: d :: rest) = .char d :: pieces sym rest := by
  conv_lhs => unfold pieces
  rw [if_pos rfl]

theorem pieces_many (rest : List α) :
    pieces sym (sym.many :: rest) = .many :: pieces sym rest := by
  conv_lhs => unfold pieces
  rw [if_neg sym.escape_ne_many.symm, if_pos rfl]

theorem pieces_one (rest : List α) :
    pieces sym (sym.one :: rest) = .one :: pieces sym rest := by
  conv_lhs => unfold pieces
  rw [if_neg sym.escape_ne_one.symm, if_neg sym.many_ne_one.symm, if_pos rfl]

theorem pieces_of_not_special {c : α} (hc : ¬sym.Special c) (rest : List α) :
    pieces sym (c :: rest) = .char c :: pieces sym rest := by
  unfold Symbols.Special at hc
  conv_lhs => unfold pieces
  rw [if_neg fun h => hc (Or.inl h), if_neg fun h => hc (Or.inr (Or.inl h)),
    if_neg fun h => hc (Or.inr (Or.inr h))]

/-- A character that is escaped, or that is none of the symbols, stands for itself. -/
theorem pieces_escaped_cons {p : α → Bool} {c : α} (hc : sym.Special c → p c = true)
    (text rest : List α) :
    pieces sym (escaped sym p (c :: text) ++ rest) =
      .char c :: pieces sym (escaped sym p text ++ rest) := by
  by_cases hp : p c = true
  · rw [escaped_cons_of_pos sym hp, List.cons_append, List.cons_append, pieces_escape]
  · rw [escaped_cons_of_not sym hp, List.cons_append, pieces_of_not_special (mt hc hp)]

/-- A text whose symbols are all escaped stands for itself. -/
theorem pieces_escaped {p : α → Bool} {text : List α}
    (htext : ∀ c ∈ text, sym.Special c → p c = true) (rest : List α) :
    pieces sym (escaped sym p text ++ rest) = text.map Piece.char ++ pieces sym rest := by
  induction text with
  | nil => rfl
  | cons c text ih =>
      rw [pieces_escaped_cons (htext c List.mem_cons_self),
        ih fun d hd => htext d (List.mem_cons_of_mem c hd)]
      rfl

end Pieces

/-! ## Searching for a text -/

/-- A text that anything may follow. -/
theorem matchesPieces_text_iff {body text : List α} :
    matchesPieces (body.map Piece.char ++ [.many]) text = true ↔ body <+: text := by
  induction body generalizing text with
  | nil =>
      refine iff_of_true ?_ List.nil_prefix
      rw [List.map_nil, List.nil_append, matchesPieces, List.any_eq_true]
      exact ⟨[], by simp, rfl⟩
  | cons c body ih =>
      cases text with
      | nil => simp [matchesPieces]
      | cons d text =>
          rw [List.map_cons, List.cons_append, matchesPieces, Bool.and_eq_true,
            decide_eq_true_iff, ih, List.cons_prefix_cons]

variable {sym}

/-- A text whose symbols are all escaped is found where it is a part. -/
theorem like_text_iff {p : α → Bool} {body : List α}
    (hbody : ∀ c ∈ body, sym.Special c → p c = true) {text : List α} :
    like sym (containing sym (escaped sym p body)) text = true ↔ body <:+: text := by
  unfold like containing
  rw [pieces_many, pieces_escaped hbody, pieces_many, pieces, matchesPieces, List.any_eq_true,
    List.infix_iff_prefix_suffix]
  constructor
  · rintro ⟨rest, hrest, hmatches⟩
    exact ⟨rest, matchesPieces_text_iff.mp hmatches, (List.mem_tails rest text).mp hrest⟩
  · rintro ⟨rest, hpart, hrest⟩
    exact ⟨rest, (List.mem_tails rest text).mpr hrest, matchesPieces_text_iff.mpr hpart⟩

/-! ## The shortest text that is found -/

variable (sym)

/-- A shortest text that the pieces ask for. -/
def shortest : List (Piece α) → List α
  | [] => []
  | .char c :: rest => c :: shortest rest
  | .many :: rest => shortest rest
  | .one :: rest => sym.many :: shortest rest

theorem matchesPieces_shortest (ps : List (Piece α)) :
    matchesPieces ps (shortest sym ps) = true := by
  induction ps with
  | nil => rfl
  | cons piece ps ih =>
      cases piece with
      | char c => simpa [shortest, matchesPieces] using ih
      | one => simpa [shortest, matchesPieces] using ih
      | many =>
          rw [shortest, matchesPieces, List.any_eq_true]
          exact ⟨shortest sym ps, by simp, ih⟩

/-- The shortest text has characters of the pattern, or the symbol for any text. -/
theorem mem_of_mem_shortest {c : α} {pattern : List α}
    (hc : c ∈ shortest sym (pieces sym pattern)) : c ∈ pattern ∨ c = sym.many := by
  induction pattern using pieces.induct sym with
  | case1 => simp [pieces, shortest] at hc
  | case2 =>
      have hlast : pieces sym [sym.escape] = [.char sym.escape] := by
        unfold pieces
        rw [if_pos rfl]
      rw [hlast] at hc
      exact Or.inl hc
  | case3 d rest ih =>
      rw [pieces_escape, shortest, List.mem_cons] at hc
      rcases hc with rfl | hc
      · simp
      · exact (ih hc).imp_left fun h => by simp [h]
  | case4 rest _ ih =>
      rw [pieces_many, shortest] at hc
      exact (ih hc).imp_left (List.mem_cons_of_mem _)
  | case5 rest _ _ ih =>
      rw [pieces_one, shortest, List.mem_cons] at hc
      rcases hc with rfl | hc
      · exact Or.inr rfl
      · exact (ih hc).imp_left (List.mem_cons_of_mem _)
  | case6 d rest hescape hmany hone ih =>
      rw [pieces_of_not_special (by simp [Symbols.Special, hescape, hmany, hone]), shortest,
        List.mem_cons] at hc
      rcases hc with rfl | hc
      · simp
      · exact (ih hc).imp_left (List.mem_cons_of_mem _)

/-- The shortest text for an escaped text is not longer than the text, and is the text just if
all symbols in it are escaped. -/
structure Shortened (p : α → Bool) (text : List α) : Prop where
  length : (shortest sym (pieces sym (escaped sym p text ++ [sym.many]))).length ≤ text.length
  eq_iff : shortest sym (pieces sym (escaped sym p text ++ [sym.many])) = text ↔
    ∀ c ∈ text, sym.Special c → p c = true

section Shortened

variable {sym} {p : α → Bool} {c d : α} {text : List α}

/-- A character that stands for itself. -/
theorem Shortened.char (h : Shortened sym p text) (hc : sym.Special c → p c = true) :
    Shortened sym p (c :: text) where
  length := by
    have hlength := h.length
    rw [pieces_escaped_cons hc, shortest, List.length_cons, List.length_cons]
    omega
  eq_iff := by
    rw [pieces_escaped_cons hc, shortest, List.cons.injEq, List.forall_mem_cons]
    exact and_congr (iff_of_true rfl hc) h.eq_iff

/-- A text that is cut short is another text. -/
theorem Shortened.of_lt
    (hlt : (shortest sym (pieces sym (escaped sym p text ++ [sym.many]))).length < text.length)
    (hc : c ∈ text) (hspecial : sym.Special c) (hp : ¬p c = true) : Shortened sym p text where
  length := hlt.le
  eq_iff := by
    refine iff_of_false ?_ fun hall => hp (hall c hc hspecial)
    intro heq
    rw [heq] at hlt
    exact absurd hlt (lt_irrefl _)

/-- A text in which another character stands is another text. -/
theorem Shortened.of_ne {rest : List α}
    (heq : shortest sym (pieces sym (escaped sym p text ++ [sym.many])) = rest)
    (hlength : rest.length ≤ text.length) (hne : rest ≠ text) (hc : c ∈ text)
    (hspecial : sym.Special c) (hp : ¬p c = true) : Shortened sym p text where
  length := by rw [heq]; exact hlength
  eq_iff := by
    rw [heq]
    exact iff_of_false hne fun hall => hp (hall c hc hspecial)

/-- A symbol at the end that escapes the one for any text. -/
theorem Shortened.escape_last (hp : ¬p sym.escape = true) : Shortened sym p [sym.escape] := by
  have hshortest : shortest sym (pieces sym (escaped sym p [sym.escape] ++ [sym.many])) =
      [sym.many] := by
    rw [escaped_cons_of_not sym hp, List.cons_append]
    exact congrArg (shortest sym) (pieces_escape sym.many [])
  refine Shortened.of_ne hshortest (le_refl 1) ?_ List.mem_cons_self (Or.inl rfl) hp
  intro heq
  exact sym.escape_ne_many (List.cons.inj heq).1.symm

/-- A symbol that escapes the character after it, or the symbol that escapes that character. -/
theorem Shortened.escape_cons (h : Shortened sym p text) (hp : ¬p sym.escape = true)
    (hspecial : ∀ c, p c = true → sym.Special c) : Shortened sym p (sym.escape :: d :: text) := by
  have hlength := h.length
  have hmem : sym.escape ∈ sym.escape :: d :: text := List.mem_cons_self
  by_cases hd : p d = true
  · have hpieces : pieces sym (escaped sym p (sym.escape :: d :: text) ++ [sym.many]) =
        .char sym.escape :: pieces sym (d :: (escaped sym p text ++ [sym.many])) := by
      rw [escaped_cons_of_not sym hp, escaped_cons_of_pos sym hd]
      exact pieces_escape _ _
    rcases hspecial d hd with rfl | rfl | rfl
    · exact absurd hd hp
    · refine Shortened.of_lt ?_ hmem (Or.inl rfl) hp
      rw [hpieces, pieces_many, shortest, shortest, List.length_cons, List.length_cons,
        List.length_cons]
      omega
    · refine Shortened.of_ne (by rw [hpieces, pieces_one, shortest, shortest]) ?_ ?_ hmem
        (Or.inl rfl) hp
      · rw [List.length_cons, List.length_cons, List.length_cons, List.length_cons]
        omega
      · intro heq
        exact sym.many_ne_one (List.cons.inj (List.cons.inj heq).2).1
  · have hpieces : pieces sym (escaped sym p (sym.escape :: d :: text) ++ [sym.many]) =
        .char d :: pieces sym (escaped sym p text ++ [sym.many]) := by
      rw [escaped_cons_of_not sym hp, escaped_cons_of_not sym hd]
      exact pieces_escape _ _
    refine Shortened.of_lt ?_ hmem (Or.inl rfl) hp
    rw [hpieces, shortest, List.length_cons, List.length_cons, List.length_cons]
    omega

/-- The symbol for any text takes nothing. -/
theorem Shortened.many_cons (h : Shortened sym p text) (hp : ¬p sym.many = true) :
    Shortened sym p (sym.many :: text) := by
  have hlength := h.length
  refine Shortened.of_lt ?_ List.mem_cons_self (Or.inr (Or.inl rfl)) hp
  rw [escaped_cons_of_not sym hp, List.cons_append, pieces_many, shortest, List.length_cons]
  omega

/-- The symbol for any character takes another character. -/
theorem Shortened.one_cons (h : Shortened sym p text) (hp : ¬p sym.one = true) :
    Shortened sym p (sym.one :: text) := by
  have hlength := h.length
  have hshortest : shortest sym (pieces sym (escaped sym p (sym.one :: text) ++ [sym.many])) =
      sym.many :: shortest sym (pieces sym (escaped sym p text ++ [sym.many])) := by
    rw [escaped_cons_of_not sym hp, List.cons_append, pieces_one, shortest]
  refine Shortened.of_ne hshortest ?_ ?_ List.mem_cons_self (Or.inr (Or.inr rfl)) hp
  · rw [List.length_cons, List.length_cons]
    omega
  · intro heq
    exact sym.many_ne_one (List.cons.inj heq).1

end Shortened

/-- Every text is shortened.  A symbol that escapes and is not escaped itself takes the character
after it along, so the induction goes over texts that are one or two characters shorter. -/
theorem shortened {p : α → Bool} (hp : ∀ c, p c = true → sym.Special c) :
    ∀ text : List α, Shortened sym p text
  | [] => ⟨by simp [escaped, pieces_many, pieces, shortest],
      by simp [escaped, pieces_many, pieces, shortest]⟩
  | c :: text => by
      by_cases hself : sym.Special c → p c = true
      · exact (shortened hp text).char hself
      obtain ⟨hspecial, hnot⟩ := Classical.not_imp.mp hself
      rcases hspecial with rfl | rfl | rfl
      · cases text with
        | nil => exact Shortened.escape_last hnot
        | cons d rest => exact (shortened hp rest).escape_cons hnot hp
      · exact (shortened hp text).many_cons hnot
      · exact (shortened hp text).one_cons hnot

/-! ## Exact searches -/

/-- A mapping of characters that keeps the symbols, and makes no others. -/
def Keeps (f : α → α) : Prop :=
  ∀ c d, sym.Special d → (f c = d ↔ c = d)

section Exact

variable {sym} {p : α → Bool} {f : α → α}

omit [DecidableEq α] in
theorem Keeps.special_iff (hf : Keeps sym f) (c : α) : sym.Special (f c) ↔ sym.Special c := by
  unfold Symbols.Special
  rw [hf c _ (Or.inl rfl), hf c _ (Or.inr (Or.inl rfl)), hf c _ (Or.inr (Or.inr rfl))]

omit [DecidableEq α] in
/-- Symbols are mapped to themselves. -/
theorem Keeps.self (hf : Keeps sym f) {c : α} (hc : sym.Special c) : f c = c :=
  (hf c c hc).mpr rfl

/-- The same characters are escaped after the mapping. -/
theorem Keeps.escaped_iff (hf : Keeps sym f) (hp : ∀ c, p c = true → sym.Special c) (c : α) :
    p (f c) = p c := by
  by_cases hc : sym.Special c
  · rw [hf.self hc]
  · rw [Bool.eq_false_iff.mpr fun h => hc (hp c h),
      Bool.eq_false_iff.mpr fun h => hc ((hf.special_iff c).mp (hp _ h))]

theorem Keeps.map_escaped (hf : Keeps sym f) (hp : ∀ c, p c = true → sym.Special c)
    (body : List α) : (escaped sym p body).map f = escaped sym p (body.map f) := by
  induction body with
  | nil => rfl
  | cons c body ih =>
      by_cases hc : p c = true
      · have hfc : p (f c) = true := (hf.escaped_iff hp c).trans hc
        rw [escaped_cons_of_pos sym hc, List.map_cons, List.map_cons, List.map_cons, ih,
          escaped_cons_of_pos sym hfc, hf.self (Or.inl rfl)]
      · have hfc : ¬p (f c) = true := by rwa [hf.escaped_iff hp c]
        rw [escaped_cons_of_not sym hc, List.map_cons, List.map_cons, ih,
          escaped_cons_of_not sym hfc]

omit [DecidableEq α] in
theorem Keeps.map_containing (hf : Keeps sym f) (body : List α) :
    (containing sym body).map f = containing sym (body.map f) := by
  simp [containing, hf.self (c := sym.many) (Or.inr (Or.inl rfl))]

/-- The shortest text for a mapped text is one of the mapped texts. -/
theorem Keeps.exists_shortest (hf : Keeps sym f) (body : List α) :
    ∃ text : List α, text.map f =
      shortest sym (pieces sym (escaped sym p (body.map f) ++ [sym.many])) := by
  have hrange : ∀ c ∈ shortest sym (pieces sym (escaped sym p (body.map f) ++ [sym.many])),
      c ∈ Set.range f := by
    intro c hc
    have hmany : f sym.many = sym.many := hf.self (Or.inr (Or.inl rfl))
    rcases mem_of_mem_shortest sym hc with hc | rfl
    · rw [List.mem_append, List.mem_singleton] at hc
      rcases hc with hc | rfl
      · obtain ⟨d, hd, hc⟩ := List.mem_flatMap.mp hc
        obtain ⟨b, -, rfl⟩ := List.mem_map.mp hd
        split_ifs at hc
        · simp only [List.mem_cons, List.not_mem_nil, or_false] at hc
          rcases hc with rfl | rfl
          · exact ⟨_, hf.self (Or.inl rfl)⟩
          · exact ⟨b, rfl⟩
        · exact ⟨b, (List.mem_singleton.mp hc).symm⟩
      · exact ⟨_, hmany⟩
    · exact ⟨_, hmany⟩
  have hlist : shortest sym (pieces sym (escaped sym p (body.map f) ++ [sym.many])) ∈
      Set.range (List.map f) := by
    rw [Set.range_list_map]
    exact hrange
  exact hlist

/-- A search in texts that are mapped character by character, with a mapping that keeps the
symbols, finds the texts that contain the text if and only if all symbols in it are escaped. -/
theorem exact_iff (hf : Keeps sym f) (hp : ∀ c, p c = true → sym.Special c) (body : List α) :
    (∀ text : List α, like sym ((containing sym (escaped sym p body)).map f) (text.map f) = true ↔
      body.map f <:+: text.map f) ↔ ∀ c ∈ body, sym.Special c → p c = true := by
  have hbody : (∀ c ∈ body.map f, sym.Special c → p c = true) ↔
      ∀ c ∈ body, sym.Special c → p c = true := by
    simp only [List.forall_mem_map, hf.special_iff, hf.escaped_iff hp]
  rw [hf.map_containing, hf.map_escaped hp, ← hbody]
  constructor
  · intro hexact
    obtain ⟨text, htext⟩ := hf.exists_shortest (p := p) body
    have hshort := shortened sym hp (body.map f)
    have hfound : like sym (containing sym (escaped sym p (body.map f))) (text.map f) = true := by
      have hmatches := matchesPieces_shortest sym
        (pieces sym (containing sym (escaped sym p (body.map f))))
      rw [containing, pieces_many, shortest, ← htext] at hmatches
      rw [like, containing, pieces_many]
      exact hmatches
    have hpart := (hexact text).mp hfound
    rw [htext] at hpart
    exact hshort.eq_iff.mp (hpart.eq_of_length_le hshort.length).symm
  · intro hall text
    exact like_text_iff hall

end Exact

end Like
end Foundation
end Veilence
