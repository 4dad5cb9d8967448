import Mathlib.Data.List.TakeWhile
import Dptf.Lib.Path

/-!
# The document root

The web server serves the files below one directory.  Its name is an absolute path
of plain names, short enough for the buffers of the server.
-/

open Lib

namespace Ws

/-- `MAX_PATH`. -/
def maxPath : Nat := 260

/-- What a component of a path name says. -/
def toStep (component : List Char) : PathStep (List Char) :=
  if component = [] ∨ component = ['.'] then .stay
  else if component = ['.', '.'] then .up
  else .down component

/-- A path name, component by component. -/
def steps (pathname : List Char) : List (PathStep (List Char)) :=
  (pathname.splitOn '/').map toStep

/-- The directory or file that an absolute path name names lexically. -/
def normalize (pathname : List Char) : List (List Char) := walk [] (steps pathname)

/-- A component that names something. -/
structure IsPlain (name : List Char) : Prop where
  ne_nil : name ≠ []
  ne_dot : name ≠ ['.']
  ne_dotDot : name ≠ ['.', '.']
  no_sep : '/' ∉ name

/-- A directory as the server is configured with it. -/
structure DocRoot where
  names : List (List Char)
  names_ne_nil : names ≠ []
  isPlain : ∀ name ∈ names, IsPlain name
  length_lt : (names.flatMap ('/' :: ·)).length < maxPath

/-- `EsifWsDocRoot`. -/
def DocRoot.path (root : DocRoot) : List Char := root.names.flatMap ('/' :: ·)

/-- The document root on Linux. -/
def dptfDocRoot : DocRoot where
  names := ["usr", "share", "dptf", "ui"].map String.toList
  names_ne_nil := by decide
  isPlain := by
    intro name h
    have hall : ∀ name ∈ ["usr", "share", "dptf", "ui"].map String.toList,
        name ≠ [] ∧ name ≠ ['.'] ∧ name ≠ ['.', '.'] ∧ '/' ∉ name := by decide
    obtain ⟨h1, h2, h3, h4⟩ := hall name h
    exact ⟨h1, h2, h3, h4⟩
  length_lt := by decide

example : dptfDocRoot.path = "/usr/share/dptf/ui".toList := by decide

/-! ## Taking path names apart -/

theorem steps_append_sep (xs ys : List Char) : steps (xs ++ '/' :: ys) = steps xs ++ steps ys := by
  simp [steps, List.splitOn_append_cons_self]

theorem toStep_of_isPlain {name : List Char} (h : IsPlain name) : toStep name = .down name := by
  simp [toStep, h.ne_nil, h.ne_dot, h.ne_dotDot]

theorem steps_of_isPlain {name : List Char} (h : IsPlain name) : steps name = [.down name] := by
  simp [steps, List.splitOn_eq_singleton h.no_sep, toStep_of_isPlain h]

/-- The names of a directory lead to it. -/
theorem walk_steps_flatMap {names : List (List Char)} (h : ∀ name ∈ names, IsPlain name) :
    walk [] (steps (names.flatMap ('/' :: ·))) = names := by
  induction names using List.reverseRecOn with
  | nil => decide
  | append_singleton names name ih =>
    have hname : IsPlain name := h name (by simp)
    have hnames : ∀ n ∈ names, IsPlain n := fun n hn => h n (by simp [hn])
    have hpath : (names ++ [name]).flatMap ('/' :: ·) =
        names.flatMap ('/' :: ·) ++ '/' :: name := by simp
    rw [hpath, steps_append_sep, walk_append, ih hnames, steps_of_isPlain hname]
    rfl

theorem DocRoot.normalize_path (root : DocRoot) : normalize root.path = root.names :=
  walk_steps_flatMap root.isPlain

/-- **What follows a separator starts at the root.** -/
theorem DocRoot.normalize_append_sep (root : DocRoot) (rest : List Char) :
    normalize (root.path ++ '/' :: rest) = walk root.names (steps rest) := by
  rw [normalize, steps_append_sep, walk_append]
  exact congrArg (walk · (steps rest)) root.normalize_path

/-- A component is a piece of the path name. -/
theorem isInfix_of_mem_splitOn {component pathname : List Char}
    (h : component ∈ pathname.splitOn '/') : component <:+: pathname := by
  have hjoin : ['/'].intercalate (pathname.splitOn '/') = pathname := List.intercalate_splitOn '/'
  rw [← hjoin]
  generalize pathname.splitOn '/' = components at h
  induction components with
  | nil => simp at h
  | cons c cs ih =>
    cases cs with
    | nil =>
      obtain rfl : component = c := by simpa using h
      simp
    | cons d ds =>
      rw [List.intercalate_cons_cons]
      rcases List.mem_cons.mp h with rfl | h
      · exact ⟨[], '/' :: ['/'].intercalate (d :: ds), by simp⟩
      · exact (ih h).trans ⟨c ++ ['/'], [], by simp⟩

/-- Where a path name has no `..`, no step goes up. -/
theorem up_not_mem_steps {pathname : List Char} (h : ¬ ['.', '.'] <:+: pathname) :
    .up ∉ steps pathname := by
  intro hmem
  obtain ⟨component, hcomp, hstep⟩ := List.mem_map.mp hmem
  have hdots : component = ['.', '.'] := by
    unfold toStep at hstep
    split at hstep
    · cases hstep
    · split at hstep
      · assumption
      · cases hstep
  exact h (hdots ▸ isInfix_of_mem_splitOn hcomp)

theorem IsPlain.append {name more : List Char} (h : IsPlain name) (hmore : '/' ∉ more) :
    IsPlain (name ++ more) where
  ne_nil := by simp [h.ne_nil]
  ne_dot := by
    intro heq
    rcases List.append_eq_singleton_iff.mp heq with ⟨hnil, -⟩ | ⟨hdot, -⟩
    · exact h.ne_nil hnil
    · exact h.ne_dot hdot
  ne_dotDot := by
    intro heq
    rcases List.append_eq_cons_iff.mp heq with ⟨hnil, -⟩ | ⟨tail, hname, htail⟩
    · exact h.ne_nil hnil
    · rcases List.append_eq_singleton_iff.mp htail.symm with ⟨rfl, -⟩ | ⟨rfl, -⟩
      · exact h.ne_dot hname
      · exact h.ne_dotDot hname
  no_sep := by simp [h.no_sep, hmore]

/-- A name followed by more of a path: its first component, and no step up. -/
theorem steps_name_append {name first behind : List Char} (hname : IsPlain name)
    (hfirst : '/' ∉ first) (hbehind : ∀ c ∈ behind.head?, c = '/')
    (hup : ¬ ['.', '.'] <:+: behind) :
    ∃ more, steps (name ++ (first ++ behind)) = .down (name ++ first) :: more ∧ .up ∉ more := by
  have hplain : IsPlain (name ++ first) := hname.append hfirst
  cases behind with
  | nil => exact ⟨[], by simpa using steps_of_isPlain hplain, by simp⟩
  | cons c cs =>
    obtain rfl : c = '/' := hbehind c (by simp)
    refine ⟨steps cs, ?_, up_not_mem_steps fun hinf => hup (hinf.trans ⟨['/'], [], by simp⟩)⟩
    rw [← List.append_assoc, steps_append_sep, steps_of_isPlain hplain, List.singleton_append]

/-- **What does not follow a separator leaves the root**, unless it goes up again. -/
theorem DocRoot.not_below_of_no_sep (root : DocRoot) {rest : List Char} {c : Char}
    (hc : c ∈ rest.head?) (hsep : c ≠ '/') (hup : ¬ ['.', '.'] <:+: rest) :
    ¬ Below root.names (normalize (root.path ++ rest)) := by
  obtain ⟨init, last, hnames⟩ :=
    (List.eq_nil_or_concat' root.names).resolve_left root.names_ne_nil
  have hinit : ∀ name ∈ init, IsPlain name := fun n hn => root.isPlain n (by simp [hnames, hn])
  have hlast : IsPlain last := root.isPlain last (by simp [hnames])
  -- The first component goes on where the root's last one ends.
  obtain ⟨first, behind, rfl, hfirst, hbehind, hne⟩ : ∃ first behind, rest = first ++ behind ∧
      '/' ∉ first ∧ (∀ c ∈ behind.head?, c = '/') ∧ first ≠ [] := by
    obtain ⟨cs, rfl⟩ : ∃ cs, rest = c :: cs := List.head?_eq_some_iff.mp hc
    refine ⟨(c :: cs).takeWhile (· ≠ '/'), (c :: cs).dropWhile (· ≠ '/'),
      List.takeWhile_append_dropWhile.symm, fun hmem => ?_, fun d hd => ?_, by simp [hsep]⟩
    · simpa using List.mem_takeWhile_imp hmem
    · have hhead := List.head?_dropWhile_not (fun c : Char => decide (c ≠ '/')) (c :: cs)
      rw [hd] at hhead
      simpa using hhead
  obtain ⟨more, hsteps, hmore⟩ := steps_name_append hlast hfirst hbehind
    fun hinf => hup (hinf.trans (List.suffix_append first behind).isInfix)
  have hnorm : normalize (root.path ++ (first ++ behind)) =
      walk (init ++ [last ++ first]) more := by
    have hpath : root.path ++ (first ++ behind) =
        init.flatMap ('/' :: ·) ++ '/' :: (last ++ (first ++ behind)) := by
      simp [DocRoot.path, hnames]
    rw [hpath, normalize, steps_append_sep, walk_append, walk_steps_flatMap hinit, hsteps]
    rfl
  rintro ⟨hpre, -⟩
  rw [hnorm, hnames] at hpre
  -- Both lead to the same file, at the same depth.
  have heq := List.prefix_of_prefix_length_le hpre (prefix_walk_of_no_up _ hmore) (by simp)
  have hlen := List.append_cancel_left (heq.eq_of_length (by simp))
  exact hne (by simpa using hlen)

end Ws
