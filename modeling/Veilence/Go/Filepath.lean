import Veilence.Go.Text

/-!
# Lexical path functions

{lit}`filepath.Clean`, {lit}`filepath.Join`, {lit}`filepath.IsAbs` and
{lit}`filepath.Dir` for slash-separated paths.

Main results:

- Theorem {lit}`clean_join`: a relative path of proper names is already clean.
- Theorem {lit}`joinPath_join`: joining it to a clean absolute directory appends it.
- Theorem {lit}`exists_names_of_clean`: a clean path without two dots is absolute, the
  dot, or made of proper names.
-/

namespace Veilence
namespace Go

/-- One element of a path, read from the left; `out` holds the elements kept so far,
the last one first. -/
def cleanStep (rooted : Bool) (out : List GoString) (part : GoString) : List GoString :=
  if part = [] ∨ part = ['.'] then out
  else if part = ['.', '.'] then
    match out with
    | [] => if rooted then [] else [part]
    | last :: before => if last = ['.', '.'] then part :: out else before
  else part :: out

/-- {lit}`filepath.Clean`: the shortest name lexically equal to the path. -/
def clean (path : GoString) : GoString :=
  let rooted : Bool := path.head? = some '/'
  let out := ((split '/' path).foldl (cleanStep rooted) []).reverse
  if rooted then '/' :: join '/' out
  else if out = [] then ['.'] else join '/' out

/-- {lit}`filepath.IsAbs`. -/
def isAbs (path : GoString) : Bool :=
  path.head? = some '/'

/-- {lit}`filepath.Join` of two elements: empty ones are left out. -/
def joinPath (first second : GoString) : GoString :=
  if first = [] then (if second = [] then [] else clean second)
  else if second = [] then clean first
  else clean (first ++ '/' :: second)

/-- {lit}`filepath.Dir`: the path up to its last separator, cleaned. -/
def dir (path : GoString) : GoString :=
  clean (path.reverse.dropWhile (· ≠ '/')).reverse

/-- Whether {lit}`strings.Contains` finds two dots in a row. -/
def hasDotDot (s : GoString) : Bool :=
  ['.', '.'] <:+: s

/-- A proper file name: one nonempty path element other than the dot names. -/
def IsName (s : GoString) : Prop :=
  s ≠ [] ∧ '/' ∉ s ∧ s ≠ ['.'] ∧ s ≠ ['.', '.']

instance (s : GoString) : Decidable (IsName s) :=
  inferInstanceAs (Decidable (_ ∧ _))

/-! ## Splitting and joining -/

@[simp]
theorem join_singleton (sep : Char) (part : GoString) : join sep [part] = part := by
  simp [join]

theorem join_cons (sep : Char) (part : GoString) {parts : List GoString} (hne : parts ≠ []) :
    join sep (part :: parts) = part ++ sep :: join sep parts := by
  cases parts with
  | nil => exact absurd rfl hne
  | cons next rest => simp [join, List.intercalate]

/-- Splitting at a separator splits the two sides. -/
theorem split_append_cons (sep : Char) (s t : GoString) :
    split sep (s ++ sep :: t) = split sep s ++ split sep t :=
  List.splitOn_append_cons_self s t

/-- Pieces without the separator are split off exactly. -/
theorem split_join {sep : Char} {parts : List GoString} (hsep : ∀ p ∈ parts, sep ∉ p)
    (hne : parts ≠ []) : split sep (join sep parts) = parts :=
  List.splitOn_intercalate sep hsep hne

/-- Joined names determine the names. -/
theorem join_inj {sep : Char} {ps qs : List GoString} (hps : ∀ p ∈ ps, sep ∉ p)
    (hqs : ∀ q ∈ qs, sep ∉ q) (hp : ps ≠ []) (hq : qs ≠ [])
    (heq : join sep ps = join sep qs) : ps = qs := by
  rw [← split_join hps hp, heq, split_join hqs hq]

/-! ## Cleaning proper names -/

/-- A proper name is kept. -/
theorem cleanStep_name {rooted : Bool} {out : List GoString} {part : GoString}
    (hpart : IsName part) : cleanStep rooted out part = part :: out := by
  obtain ⟨hne, _, hdot, hdots⟩ := hpart
  simp [cleanStep, hne, hdot, hdots]

/-- Proper names are all kept. -/
theorem foldl_cleanStep_names {rooted : Bool} {parts : List GoString}
    (hparts : ∀ p ∈ parts, IsName p) (out : List GoString) :
    parts.foldl (cleanStep rooted) out = parts.reverse ++ out := by
  induction parts generalizing out with
  | nil => simp
  | cons part parts ih =>
      rw [List.foldl_cons, cleanStep_name (hparts part (by simp)),
        ih fun p hp => hparts p (List.mem_cons_of_mem _ hp)]
      simp

/-- A path of proper names does not begin with a slash. -/
theorem head?_join_names {parts : List GoString} (hparts : ∀ p ∈ parts, IsName p) :
    (join '/' parts).head? ≠ some '/' := by
  cases parts with
  | nil => simp [join]
  | cons part parts =>
      obtain ⟨hne, hslash, _⟩ := hparts part (by simp)
      obtain ⟨c, cs, rfl⟩ := List.exists_cons_of_ne_nil hne
      have hc : c ≠ '/' := by
        rintro rfl
        simp at hslash
      rcases eq_or_ne parts [] with rfl | hrest
      · simpa [join] using hc
      · simpa [join_cons '/' _ hrest] using hc

theorem slash_notMem_of_names {parts : List GoString} (hparts : ∀ p ∈ parts, IsName p) :
    ∀ p ∈ parts, '/' ∉ p :=
  fun p hp => (hparts p hp).2.1

theorem join_names_ne_nil {parts : List GoString} (hparts : ∀ p ∈ parts, IsName p)
    (hne : parts ≠ []) : join '/' parts ≠ [] := by
  intro hnil
  have hsplit := split_join (slash_notMem_of_names hparts) hne
  rw [hnil] at hsplit
  exact (hparts [] (by simp [← hsplit, split])).1 rfl

/-- Joining two runs of names puts a separator between them. -/
theorem join_append {sep : Char} {ps qs : List GoString} (hps : ∀ p ∈ ps, sep ∉ p)
    (hqs : ∀ q ∈ qs, sep ∉ q) (hp : ps ≠ []) (hq : qs ≠ []) :
    join sep (ps ++ qs) = join sep ps ++ sep :: join sep qs := by
  have hall : ∀ p ∈ ps ++ qs, sep ∉ p := by
    intro p hmem
    rcases List.mem_append.mp hmem with hmem | hmem
    · exact hps p hmem
    · exact hqs p hmem
  refine split_injective sep ?_
  rw [split_append_cons, split_join hps hp, split_join hqs hq, split_join hall (by simp [hq])]

/-- A relative path of proper names is already clean. -/
theorem clean_join {parts : List GoString} (hparts : ∀ p ∈ parts, IsName p)
    (hne : parts ≠ []) : clean (join '/' parts) = join '/' parts := by
  have hhead := head?_join_names hparts
  have hsplit := split_join (slash_notMem_of_names hparts) hne
  simp only [clean, hsplit, foldl_cleanStep_names hparts, decide_eq_true_eq, if_neg hhead]
  simp [hne]

/-- An absolute path of proper names is already clean. -/
theorem clean_rooted_join {parts : List GoString} (hparts : ∀ p ∈ parts, IsName p)
    (hne : parts ≠ []) : clean ('/' :: join '/' parts) = '/' :: join '/' parts := by
  have hsplit : split '/' ('/' :: join '/' parts) = [] :: parts := by
    have hroot := split_append_cons '/' [] (join '/' parts)
    rw [split_join (slash_notMem_of_names hparts) hne] at hroot
    simpa [split] using hroot
  have hempty : cleanStep true [] [] = [] := rfl
  simp only [clean, hsplit, List.head?_cons, decide_true, List.foldl_cons, hempty,
    foldl_cleanStep_names hparts, if_true]
  simp

/-- Joining a relative path of proper names to a clean absolute directory appends it. -/
theorem joinPath_join {dir parts : List GoString} (hdir : ∀ p ∈ dir, IsName p)
    (hdirne : dir ≠ []) (hparts : ∀ p ∈ parts, IsName p) (hne : parts ≠ []) :
    joinPath ('/' :: join '/' dir) (join '/' parts) =
      '/' :: join '/' dir ++ '/' :: join '/' parts := by
  have hall : ∀ p ∈ dir ++ parts, IsName p := by
    intro p hp
    rcases List.mem_append.mp hp with hp | hp
    · exact hdir p hp
    · exact hparts p hp
  have happend := join_append (slash_notMem_of_names hdir) (slash_notMem_of_names hparts)
    hdirne hne
  rw [joinPath, if_neg (by simp), if_neg (join_names_ne_nil hparts hne), List.cons_append,
    ← happend, clean_rooted_join hall (by simp [hne])]

/-- Joining the dot to a clean absolute directory leaves it. -/
theorem joinPath_dot {dir : List GoString} (hdir : ∀ p ∈ dir, IsName p) (hne : dir ≠ []) :
    joinPath ('/' :: join '/' dir) ['.'] = '/' :: join '/' dir := by
  have hdots : split '/' (join '/' dir ++ '/' :: ['.']) = dir ++ [['.']] := by
    rw [split_append_cons, split_join (slash_notMem_of_names hdir) hne]
    rfl
  have hsplit : split '/' ('/' :: (join '/' dir ++ ['/', '.'])) = [] :: (dir ++ [['.']]) := by
    have hroot := split_append_cons '/' [] (join '/' dir ++ '/' :: ['.'])
    rw [hdots] at hroot
    simpa [split] using hroot
  have hempty : cleanStep true [] [] = [] := rfl
  have hdot (out : List GoString) : cleanStep true out ['.'] = out := by simp [cleanStep]
  rw [joinPath, if_neg (by simp), if_neg (by simp)]
  simp only [clean, List.cons_append, hsplit, List.head?_cons, decide_true, List.foldl_cons,
    hempty, List.foldl_append, foldl_cleanStep_names hdir, List.foldl_nil, hdot, if_true]
  simp

/-- A trailing slash of an absolute path is dropped. -/
theorem clean_rooted_join_slash {parts : List GoString} (hparts : ∀ p ∈ parts, IsName p)
    (hne : parts ≠ []) : clean ('/' :: join '/' parts ++ ['/']) = '/' :: join '/' parts := by
  have hslash : split '/' (join '/' parts ++ '/' :: []) = parts ++ [[]] := by
    rw [split_append_cons, split_join (slash_notMem_of_names hparts) hne]
    rfl
  have hsplit : split '/' ('/' :: (join '/' parts ++ ['/'])) = [] :: (parts ++ [[]]) := by
    have hroot := split_append_cons '/' [] (join '/' parts ++ '/' :: [])
    rw [hslash] at hroot
    simpa [split] using hroot
  have hempty (out : List GoString) : cleanStep true out [] = out := by simp [cleanStep]
  simp only [clean, List.cons_append, hsplit, List.head?_cons, decide_true, List.foldl_cons,
    hempty, List.foldl_append, foldl_cleanStep_names hparts, List.foldl_nil, if_true]
  simp

/-- The parent of a path of proper names. -/
theorem dir_join {parts : List GoString} {last : GoString} (hparts : ∀ p ∈ parts, IsName p)
    (hne : parts ≠ []) (hlast : IsName last) :
    dir ('/' :: join '/' (parts ++ [last])) = '/' :: join '/' parts := by
  have happend : join '/' (parts ++ [last]) = join '/' parts ++ '/' :: join '/' [last] := by
    apply join_append (slash_notMem_of_names hparts) _ hne (by simp)
    intro p hp
    rw [List.mem_singleton.mp hp]
    exact hlast.2.1
  have hall : ∀ c ∈ last.reverse, decide (c ≠ '/') = true := by
    intro c hc
    rw [decide_eq_true_eq]
    rintro rfl
    exact hlast.2.1 (List.mem_reverse.mp hc)
  have hdrop : (('/' :: join '/' (parts ++ [last])).reverse.dropWhile (· ≠ '/')).reverse =
      '/' :: join '/' parts ++ ['/'] := by
    rw [happend, join_singleton, List.reverse_cons, List.reverse_append, List.reverse_cons,
      List.append_assoc, List.append_assoc, List.dropWhile_append_of_pos hall]
    simp
  rw [dir, hdrop, clean_rooted_join_slash hparts hne]

/-! ## What cleaning leaves -/

/-- One step keeps an element of the path or none. -/
theorem mem_cleanStep {rooted : Bool} {out : List GoString} {part p : GoString}
    (hp : p ∈ cleanStep rooted out part) : p ∈ out ∨ (p = part ∧ part ≠ [] ∧ part ≠ ['.']) := by
  by_cases hskip : part = [] ∨ part = ['.']
  · rw [cleanStep.eq_def, if_pos hskip] at hp
    exact Or.inl hp
  have hproper : part ≠ [] ∧ part ≠ ['.'] := not_or.mp hskip
  by_cases hdots : part = ['.', '.']
  · rw [cleanStep.eq_def, if_neg hskip, if_pos hdots] at hp
    cases out with
    | nil =>
        cases rooted with
        | true => cases hp
        | false => exact Or.inr ⟨List.mem_singleton.mp hp, hproper⟩
    | cons last before =>
        dsimp only at hp
        split_ifs at hp
        · cases List.mem_cons.mp hp with
          | inl hpart => exact Or.inr ⟨hpart, hproper⟩
          | inr hold => exact Or.inl hold
        · exact Or.inl (List.mem_cons_of_mem last hp)
  · rw [cleanStep.eq_def, if_neg hskip, if_neg hdots] at hp
    cases List.mem_cons.mp hp with
    | inl hpart => exact Or.inr ⟨hpart, hproper⟩
    | inr hold => exact Or.inl hold

/-- What is kept are elements of the path other than the empty one and the dot. -/
theorem mem_foldl_cleanStep {rooted : Bool} {parts out : List GoString} {p : GoString}
    (hp : p ∈ parts.foldl (cleanStep rooted) out) :
    p ∈ out ∨ (p ∈ parts ∧ p ≠ [] ∧ p ≠ ['.']) := by
  induction parts generalizing out with
  | nil => exact Or.inl hp
  | cons part parts ih =>
      rw [List.foldl_cons] at hp
      cases ih hp with
      | inl hstep =>
          cases mem_cleanStep hstep with
          | inl hold => exact Or.inl hold
          | inr hnew =>
              obtain ⟨rfl, hproper⟩ := hnew
              exact Or.inr ⟨by simp, hproper⟩
      | inr hlater => exact Or.inr ⟨List.mem_cons_of_mem part hlater.1, hlater.2⟩

/-- An element of a path is a part of its text. -/
theorem infix_join {sep : Char} {parts : List GoString} {p : GoString} (hp : p ∈ parts) :
    p <:+: join sep parts := by
  induction parts with
  | nil => cases hp
  | cons part parts ih =>
      by_cases hrest : parts = []
      · subst hrest
        rw [List.mem_singleton.mp hp, join_singleton]
      · rw [join_cons sep part hrest]
        cases List.mem_cons.mp hp with
        | inl hpart =>
            rw [hpart]
            exact (List.prefix_append part _).isInfix
        | inr hmem =>
            apply (ih hmem).trans
            apply List.IsSuffix.isInfix
            exact ⟨part ++ [sep], by simp⟩

/-- A clean path is absolute, the dot, or a sequence of proper names unless two dots stand
in it. -/
theorem exists_names_of_clean {path : GoString} (habs : isAbs (clean path) = false)
    (hdots : hasDotDot (clean path) = false) (hdot : clean path ≠ ['.']) :
    ∃ parts, parts ≠ [] ∧ (∀ p ∈ parts, IsName p) ∧ clean path = join '/' parts := by
  by_cases hrooted : path.head? = some '/'
  · simp [clean, hrooted, isAbs] at habs
  have hclean : clean path =
      if ((split '/' path).foldl (cleanStep false) []).reverse = [] then ['.']
      else join '/' ((split '/' path).foldl (cleanStep false) []).reverse := by
    simp [clean, hrooted]
  split_ifs at hclean with hout
  · exact absurd hclean hdot
  · refine ⟨_, hout, fun p hp => ?_, hclean⟩
    have hmem := mem_foldl_cleanStep (List.mem_reverse.mp hp)
    cases hmem with
    | inl hnil => cases hnil
    | inr hpart =>
        obtain ⟨hsplit, hne, hone⟩ := hpart
        refine ⟨hne, notMem_of_mem_split hsplit, hone, ?_⟩
        rintro rfl
        have hinfix : ['.', '.'] <:+: clean path := by
          rw [hclean]
          exact infix_join hp
        unfold hasDotDot at hdots
        exact of_decide_eq_false hdots hinfix

example : clean "a//b/../c/./d/".toList = "a/c/d".toList := by
  decide

end Go
end Veilence
