import GraphWeave.Proofs.Execution.Batches
import GraphWeave.Proofs.Document.Grammar

/-!
Nulled subtrees kept by the text of their paths. The executor marks a subtree as nulled when a null
reaches its boundary, and drops every queued field beneath a mark.
-/

namespace GraphWeave

namespace PathSegment

/-- A segment of a response path: a key that is a name, or a list index. -/
def Named : PathSegment → Prop
  | .key name => isName name = true
  | .index _ => True

theorem text_index_toList (i : Nat) :
    (PathSegment.index i).text.toList = '[' :: (Nat.toDigits 10 i ++ [']']) := by
  simp [text, Nat.toList_repr]

/-- No segment's text holds a dot: names are letters, digits and underscores, and an index is
its decimal digits in brackets. -/
theorem dot_not_mem_text {s : PathSegment} (named : s.Named) : '.' ∉ s.text.toList := by
  cases s with
  | key name =>
    obtain ⟨c, cs, chars, start, rest⟩ := isName_iff.mp named
    simp only [text, chars, List.mem_cons, not_or]
    refine ⟨fun dot => by simp [← dot, isNameStart] at start, fun inner => ?_⟩
    simpa [isNameChar] using rest _ inner
  | index i =>
    rw [text_index_toList]
    intro dot
    rcases List.mem_cons.mp dot with bracket | dot
    · cases bracket
    · rcases List.mem_append.mp dot with digit | bracket
      · simpa using Nat.isDigit_of_mem_toDigits (by decide) (by decide) digit
      · simp at bracket

theorem text_toList_ne_nil {s : PathSegment} (named : s.Named) : s.text.toList ≠ [] := by
  cases s with
  | key name =>
    obtain ⟨c, cs, chars, -, -⟩ := isName_iff.mp named
    simp [text, chars]
  | index i => simp [text_index_toList]

/-- The text of a segment gives the segment back: a name never starts with a bracket, and the
decimal digits of an index give the index back. -/
theorem text_injective {s t : PathSegment} (named : s.Named) (named' : t.Named)
    (same : s.text.toList = t.text.toList) : s = t := by
  have bracketFree : ∀ name : String, isName name = true → ∀ i : Nat,
      name.toList ≠ (PathSegment.index i).text.toList := by
    intro name isKey i clash
    obtain ⟨c, cs, chars, start, -⟩ := isName_iff.mp isKey
    rw [chars, text_index_toList, List.cons.injEq] at clash
    simp [clash.1, isNameStart] at start
  cases s with
  | key name =>
    cases t with
    | key name' => exact congrArg PathSegment.key (String.toList_inj.mp same)
    | index j => exact absurd same (bracketFree name named j)
  | index i =>
    cases t with
    | key name' => exact absurd same.symm (bracketFree name' named' i)
    | index j =>
      rw [text_index_toList, text_index_toList, List.cons.injEq] at same
      have digits : Nat.toDigits 10 i = Nat.toDigits 10 j := List.append_cancel_right same.2
      congr 1
      calc i = Nat.ofDigitChars 10 (Nat.toDigits 10 i) 0 := Nat.ofDigitChars_ten_toDigits.symm
        _ = Nat.ofDigitChars 10 (Nat.toDigits 10 j) 0 := by rw [digits]
        _ = j := Nat.ofDigitChars_ten_toDigits

end PathSegment

namespace Path

/-- A response path whose keys are names. -/
def Named (p : Path) : Prop := ∀ s ∈ p, s.Named

theorem Named.of_prefix {p q : Path} (named : p.Named) (before : q <+: p) : q.Named :=
  fun s member => named s (before.subset member)

theorem dotted_toList (p : Path) :
    p.dotted.toList = ['.'].intercalate (p.map fun s => s.text.toList) := by
  simp [dotted, Function.comp_def]

theorem splitOn_dotted {p : Path} (named : p.Named) (nonempty : p ≠ []) :
    p.dotted.toList.splitOn '.' = p.map fun s => s.text.toList := by
  rw [dotted_toList, List.splitOn_intercalate]
  · intro l member
    obtain ⟨s, inside, rfl⟩ := List.mem_map.mp member
    exact PathSegment.dot_not_mem_text (named s inside)
  · simpa using nonempty

theorem dotted_eq_empty_iff {p : Path} (named : p.Named) : p.dotted = "" ↔ p = [] := by
  constructor
  · intro empty
    by_contra nonempty
    have split := splitOn_dotted named nonempty
    rw [empty, String.toList_empty] at split
    cases p with
    | nil => exact nonempty rfl
    | cons s rest =>
      have first : s.text.toList = [] := by
        cases rest <;> simp_all
      exact PathSegment.text_toList_ne_nil (named s List.mem_cons_self) first
  · rintro rfl
    rfl

theorem eq_of_texts {p q : Path} (named : p.Named) (named' : q.Named)
    (texts : (p.map fun s => s.text.toList) = q.map fun s => s.text.toList) : p = q := by
  induction p generalizing q with
  | nil => exact (List.map_eq_nil_iff.mp texts.symm).symm
  | cons s rest ih =>
    cases q with
    | nil => simp at texts
    | cons t rest' =>
      simp only [List.map_cons, List.cons.injEq] at texts
      rw [PathSegment.text_injective (named s List.mem_cons_self) (named' t List.mem_cons_self)
        texts.1, ih (fun s member => named s (List.mem_cons_of_mem _ member))
        (fun s member => named' s (List.mem_cons_of_mem _ member)) texts.2]

theorem dotted_injective {p q : Path} (named : p.Named) (named' : q.Named)
    (same : p.dotted = q.dotted) : p = q := by
  by_cases root : p = []
  · subst root
    exact ((dotted_eq_empty_iff named').mp same.symm).symm
  have root' : q ≠ [] := fun empty =>
    root ((dotted_eq_empty_iff named).mp (same.trans ((dotted_eq_empty_iff named').mpr empty)))
  apply eq_of_texts named named'
  rw [← splitOn_dotted named root, ← splitOn_dotted named' root', same]

/-- Keeps the text of a marked path; the root's empty text is never kept. -/
def markText (keys : List String) (p : Path) : List String :=
  if p.dotted = "" then keys else keys ++ [p.dotted]

/-- Whether a path lies beneath a mark kept by text: the text of some non-empty prefix, rebuilt
one segment at a time, is kept. -/
def textMarked (keys : List String) (p : Path) : Bool :=
  !keys.isEmpty && p.inits.tail.any fun q => keys.contains (dotted q)

theorem mem_foldl_markText {M : List Path} (names : ∀ m ∈ M, m.Named) {keys : List String}
    {k : String} : k ∈ M.foldl markText keys ↔ k ∈ keys ∨ ∃ m ∈ M, m ≠ [] ∧ dotted m = k := by
  induction M generalizing keys with
  | nil => simp
  | cons m rest ih =>
    rw [List.foldl_cons, ih fun m' member => names m' (List.mem_cons_of_mem _ member)]
    have root := dotted_eq_empty_iff (names m List.mem_cons_self)
    unfold markText
    by_cases empty : m = []
    · subst empty
      simp [dotted]
    · simp only [root, empty, if_false, List.mem_append, List.mem_cons]
      grind

theorem mem_tail_inits {p q : Path} : q ∈ p.inits.tail ↔ q <+: p ∧ q ≠ [] := by
  cases p with
  | nil => simp
  | cons s rest =>
    simp only [List.inits_cons, List.tail_cons, List.mem_map, List.mem_inits]
    constructor
    · rintro ⟨r, below, rfl⟩
      exact ⟨List.prefix_cons_inj s |>.mpr below, List.cons_ne_nil _ _⟩
    · rintro ⟨below, nonempty⟩
      cases q with
      | nil => exact absurd rfl nonempty
      | cons t r =>
        obtain ⟨same, tail⟩ := List.cons_prefix_cons.mp below
        exact ⟨r, tail, by rw [same]⟩

/-- On paths whose keys are names, a path lies beneath a mark kept by text exactly when a
marked path other than the root is a prefix of it. -/
theorem textMarked_iff_exists_prefix {M : List Path} (names : ∀ m ∈ M, m.Named) {p : Path}
    (named : p.Named) :
    textMarked (M.foldl markText []) p = true ↔ ∃ m ∈ M, m ≠ [] ∧ m <+: p := by
  simp only [textMarked, Bool.and_eq_true, Bool.not_eq_true', List.isEmpty_eq_false_iff,
    List.any_eq_true, List.contains_iff_mem]
  constructor
  · rintro ⟨-, q, rebuilt, kept⟩
    obtain ⟨below, -⟩ := mem_tail_inits.mp rebuilt
    rcases (mem_foldl_markText names).mp kept with none | ⟨m, marked, nonroot, same⟩
    · cases none
    · obtain rfl := dotted_injective (names m marked) (named.of_prefix below) same
      exact ⟨m, marked, nonroot, below⟩
  · rintro ⟨m, marked, nonroot, below⟩
    have kept : dotted m ∈ M.foldl markText [] :=
      (mem_foldl_markText names).mpr (.inr ⟨m, marked, nonroot, rfl⟩)
    exact ⟨List.ne_nil_of_mem kept, m, mem_tail_inits.mpr ⟨below, nonroot⟩, kept⟩

end Path

theorem Exec.isNullified_eq_textMarked {σ : Type} {M : List Path} (names : ∀ m ∈ M, m.Named)
    {st : ExecState σ} (marks : st.nullified = M.filter fun m => !m.isEmpty) {p : Path}
    (named : p.Named) : Exec.isNullified st p = Path.textMarked (M.foldl Path.markText []) p := by
  apply Bool.eq_iff_iff.mpr
  rw [Exec.isNullified_iff, Path.textMarked_iff_exists_prefix names named, marks]
  simp [List.mem_filter, and_assoc]

/-- Marks kept by the dotted text of their paths denote exactly the prefix relation, on the
paths of a response. For marks whose keys are names: a path with named keys lies beneath a kept
text exactly when a marked path other than the root is a prefix of it; the dotted text tells
such paths apart; and the executor's check on the marks it keeps answers the same. -/
theorem text_marks_are_prefixes {M : List Path} (names : ∀ m ∈ M, m.Named) :
    (∀ p : Path, p.Named →
      (Path.textMarked (M.foldl Path.markText []) p = true ↔ ∃ m ∈ M, m ≠ [] ∧ m <+: p)) ∧
    (∀ p q : Path, p.Named → q.Named → Path.dotted p = Path.dotted q → p = q) ∧
    ∀ {σ : Type} (st : ExecState σ), st.nullified = M.filter (fun m => !m.isEmpty) →
      ∀ p : Path, p.Named →
        Exec.isNullified st p = Path.textMarked (M.foldl Path.markText []) p :=
  ⟨fun _ named => Path.textMarked_iff_exists_prefix names named,
    fun _ _ named named' same => Path.dotted_injective named named' same,
    fun _ marks _ named => Exec.isNullified_eq_textMarked names marks named⟩

/-- Marking `a.[1]` and `b` leaves `a.[10]` and `bc` alone and covers `a.[1].c`. -/
theorem sibling_texts_stay_unmarked :
    (∀ m ∈ ([[.key "a", .index 1], [.key "b"]] : List Path), m.Named) ∧
      Path.textMarked (([[.key "a", .index 1], [.key "b"]] : List Path).foldl Path.markText [])
        [.key "a", .index 10] = false ∧
      Path.textMarked (([[.key "a", .index 1], [.key "b"]] : List Path).foldl Path.markText [])
        [.key "bc"] = false ∧
      Path.textMarked (([[.key "a", .index 1], [.key "b"]] : List Path).foldl Path.markText [])
        [.key "a", .index 1, .key "c"] = true := by
  have names : ∀ m ∈ ([[.key "a", .index 1], [.key "b"]] : List Path), m.Named := by
    simp [Path.Named, PathSegment.Named, isName, isNameStart]
  have prefixes := (text_marks_are_prefixes names).1
  refine ⟨names, ?_, ?_, ?_⟩
  · rw [Bool.eq_false_iff, ne_eq,
      prefixes _ (by simp [Path.Named, PathSegment.Named, isName, isNameStart])]
    decide
  · rw [Bool.eq_false_iff, ne_eq,
      prefixes _ (by simp [Path.Named, PathSegment.Named, isName, isNameStart, isNameChar])]
    decide
  · rw [prefixes _ (by simp [Path.Named, PathSegment.Named, isName, isNameStart])]
    decide

end GraphWeave
