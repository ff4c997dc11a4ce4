import GraphWeave.Events.Bus
import Mathlib

/-!
Slices of backing arrays. What a slice shows (`Slice.Holds`), and when a change to the arrays leaves
it showing the same (`Slice.Keeps`). An append returns a slice that shows the old subscriptions
followed by the appended ones (`Slice.Holds.append`, `Slice.holds_append_nil`).
-/

namespace GraphWeave.Slice

variable {α : Type} {arrays arrays' : Arrays α} {s : Slice} {subs xs : List (Subscription α)}

/-- A slice shows a list of subscriptions: its array is there with room for its capacity, and
its first `len` cells hold the subscriptions. -/
def Holds (arrays : Arrays α) (s : Slice) (subs : List (Subscription α)) : Prop :=
  s.len ≤ s.cap ∧ ∃ cells, arrays[s.array]? = some cells ∧ s.cap ≤ cells.length ∧
    cells.take s.len = subs.map some

/-- Changed arrays leave a slice as it was: its array is still there, as long, with the same
first `len` cells. -/
def Keeps (arrays arrays' : Arrays α) (s : Slice) : Prop :=
  ∀ cells, arrays[s.array]? = some cells →
    ∃ cells', arrays'[s.array]? = some cells' ∧ cells'.length = cells.length ∧
      cells'.take s.len = cells.take s.len

theorem read_nil (arrays : Arrays α) : read arrays nil = [] := by
  simp [read, nil]

namespace Holds

theorem len_eq (holds : Holds arrays s subs) : s.len = subs.length := by
  obtain ⟨fits, cells, -, room, first⟩ := holds
  have lengths := congrArg List.length first
  rw [List.length_take, List.length_map] at lengths
  omega

theorem array_lt (holds : Holds arrays s subs) : s.array < arrays.length := by
  obtain ⟨-, cells, found, -⟩ := holds
  exact (List.getElem?_eq_some_iff.mp found).1

theorem read_eq (holds : Holds arrays s subs) : read arrays s = subs := by
  obtain ⟨-, cells, found, -, first⟩ := holds
  simp [read, found, first, List.filterMap_map]

theorem cell_eq (holds : Holds arrays s subs) (i : Nat) : cell arrays s i = subs[i]? := by
  have len := holds.len_eq
  obtain ⟨-, cells, found, room, first⟩ := holds
  unfold cell
  split
  case isTrue within =>
    have shown : cells[i]? = (subs.map some)[i]? := by
      rw [← first, List.getElem?_take_of_lt within]
    simp only [found, Option.bind_some, shown, List.getElem?_map]
    cases subs[i]? <;> rfl
  case isFalse beyond =>
    exact (List.getElem?_eq_none (by omega)).symm

theorem keep (holds : Holds arrays s subs) (keeps : Keeps arrays arrays' s) :
    Holds arrays' s subs := by
  obtain ⟨fits, cells, found, room, first⟩ := holds
  obtain ⟨cells', found', same, kept⟩ := keeps cells found
  exact ⟨fits, cells', found', same ▸ room, kept.trans first⟩

theorem clip (holds : Holds arrays s subs) {i : Nat} (within : i ≤ s.len) :
    Holds arrays ⟨s.array, i, i⟩ (subs.take i) := by
  obtain ⟨fits, cells, found, room, first⟩ := holds
  refine ⟨le_rfl, cells, found, by simp only; omega, ?_⟩
  simp only
  rw [List.map_take, ← first, List.take_take, min_eq_left within]

end Holds

theorem Keeps.refl (arrays : Arrays α) (s : Slice) : Keeps arrays arrays s :=
  fun cells found => ⟨cells, found, rfl, rfl⟩

theorem writeFrom_nil (cells : List (Option (Subscription α))) (i : Nat) :
    writeFrom cells i [] = cells := by
  simp [writeFrom]

theorem length_writeFrom {cells : List (Option (Subscription α))} {i : Nat}
    (room : i + xs.length ≤ cells.length) : (writeFrom cells i xs).length = cells.length := by
  simp only [writeFrom, List.length_append, List.length_take, List.length_map, List.length_drop]
  omega

theorem take_writeFrom {cells : List (Option (Subscription α))} {i m : Nat}
    (before : m ≤ i) (room : i ≤ cells.length) :
    (writeFrom cells i xs).take m = cells.take m := by
  have short : (cells.take i).length = i := by simp; omega
  rw [writeFrom, List.append_assoc, List.take_append_of_le_length (by omega), List.take_take,
    min_eq_left before]

theorem take_writeFrom_all {cells : List (Option (Subscription α))} {i : Nat}
    (room : i ≤ cells.length) :
    (writeFrom cells i xs).take (i + xs.length) = cells.take i ++ xs.map some := by
  have short : (cells.take i ++ xs.map some).length = i + xs.length := by simp; omega
  rw [writeFrom, List.take_left' short]

section Append

variable {g : Growth}

theorem append_of_fits (fits : s.len + xs.length ≤ s.cap) :
    append g arrays s xs =
      (arrays.set s.array (writeFrom ((arrays[s.array]?).getD []) s.len xs),
        { s with len := s.len + xs.length }) :=
  if_pos fits

theorem append_of_grows (grows : s.cap < s.len + xs.length) :
    append g arrays s xs =
      (arrays ++ [(read arrays s ++ xs).map some ++
          List.replicate (g.capacity s.cap (s.len + xs.length) - (s.len + xs.length)) none],
        ⟨arrays.length, s.len + xs.length, g.capacity s.cap (s.len + xs.length)⟩) :=
  if_neg (by omega)

theorem holds_append_of_grows (grows : s.cap < s.len + xs.length) (reads : read arrays s = subs)
    (len : s.len = subs.length) :
    Holds (append g arrays s xs).1 (append g arrays s xs).2 (subs ++ xs) := by
  have fits := g.fits s.cap (s.len + xs.length)
  rw [append_of_grows grows, reads]
  refine ⟨fits, _, List.getElem?_concat_length, ?_, ?_⟩
  · simp only [List.length_append, List.length_map, List.length_replicate]
    omega
  · rw [List.take_left' (by simp; omega), List.map_append]

theorem Holds.append (holds : Holds arrays s subs) :
    Holds (append g arrays s xs).1 (append g arrays s xs).2 (subs ++ xs) := by
  by_cases fits : s.len + xs.length ≤ s.cap
  · obtain ⟨-, cells, found, room, first⟩ := holds
    rw [append_of_fits fits, found, Option.getD_some]
    refine ⟨fits, writeFrom cells s.len xs, ?_, ?_, ?_⟩
    · exact List.getElem?_set_self (List.getElem?_eq_some_iff.mp found).1
    · rw [length_writeFrom (by omega)]
      exact room
    · rw [take_writeFrom_all (by omega), first, List.map_append]
  · exact holds_append_of_grows (by omega) holds.read_eq holds.len_eq

theorem holds_append_nil (nonempty : xs ≠ []) :
    Holds (append g arrays nil xs).1 (append g arrays nil xs).2 xs := by
  have grows : nil.cap < nil.len + xs.length := by
    simpa [nil] using List.length_pos_of_ne_nil nonempty
  simpa using holds_append_of_grows grows (read_nil arrays) rfl

/-- An append keeps every slice as it was, unless it writes into the slice's array, which it
does only past the length of the slice appended to. -/
theorem append_keeps (ok : Holds arrays s subs ∨ s.cap < s.len + xs.length) (v : Slice)
    (apart : s.len + xs.length ≤ s.cap → v.array ≠ s.array ∨ v.len ≤ s.len) :
    Keeps arrays (append g arrays s xs).1 v := by
  intro cells found
  by_cases fits : s.len + xs.length ≤ s.cap
  · have holds : Holds arrays s subs := ok.resolve_right (by omega)
    rw [append_of_fits fits]
    rcases apart fits with other | short
    · exact ⟨cells, by rw [List.getElem?_set_ne other.symm, found], rfl, rfl⟩
    · by_cases same : v.array = s.array
      · obtain ⟨-, cells₀, found₀, room, -⟩ := holds
        have cells_eq : cells₀ = cells := by
          rw [same] at found
          exact Option.some.inj (found₀.symm.trans found)
        subst cells_eq
        refine ⟨writeFrom cells₀ s.len xs, ?_, length_writeFrom (by omega),
          take_writeFrom short (by omega)⟩
        rw [same, found₀, Option.getD_some]
        exact List.getElem?_set_self (List.getElem?_eq_some_iff.mp found₀).1
      · exact ⟨cells, by rw [List.getElem?_set_ne (Ne.symm same), found], rfl, rfl⟩
  · rw [append_of_grows (by omega)]
    exact ⟨cells, by rw [List.getElem?_append_left (List.getElem?_eq_some_iff.mp found).1, found],
      rfl, rfl⟩

theorem append_array (g : Growth) (arrays : Arrays α) (s : Slice) (xs : List (Subscription α)) :
    ((append g arrays s xs).2 = { s with len := s.len + xs.length } ∧
        s.len + xs.length ≤ s.cap) ∨
      ((append g arrays s xs).2.array = arrays.length ∧
        (append g arrays s xs).1.length = arrays.length + 1) := by
  by_cases fits : s.len + xs.length ≤ s.cap
  · exact .inl ⟨by rw [append_of_fits fits], fits⟩
  · right
    rw [append_of_grows (by omega)]
    simp

theorem append_nothing (holds : Holds arrays s subs) :
    append g arrays s [] = (arrays, s) := by
  obtain ⟨fits, cells, found, -⟩ := holds
  obtain ⟨lt, rfl⟩ := List.getElem?_eq_some_iff.mp found
  rw [append_of_fits (by simpa using fits), found, Option.getD_some, writeFrom_nil,
    List.set_getElem_self lt]
  simp

theorem Holds.cut (holds : Holds arrays s subs) {i : Nat} (within : i < s.len) :
    Holds (Slice.append g arrays ⟨s.array, i, i⟩ (subs.drop (i + 1))).1
      (Slice.append g arrays ⟨s.array, i, i⟩ (subs.drop (i + 1))).2 (subs.take i ++ subs.drop (i + 1)) :=
  (holds.clip within.le).append

theorem Holds.cut_keeps (holds : Holds arrays s subs) {i : Nat} (within : i < s.len) (v : Slice) :
    Keeps arrays (Slice.append g arrays ⟨s.array, i, i⟩ (subs.drop (i + 1))).1 v := by
  cases rest : subs.drop (i + 1) with
  | nil =>
    rw [append_nothing (holds.clip within.le)]
    exact Keeps.refl arrays v
  | cons x xs =>
    refine Slice.append_keeps (.inl (holds.clip within.le)) v fun fits => ?_
    simp only [List.length_cons] at fits
    omega

theorem Holds.cut_full_or_fresh (holds : Holds arrays s subs) {i : Nat} (within : i < s.len) :
    (Slice.append g arrays ⟨s.array, i, i⟩ (subs.drop (i + 1))).2.len =
        (Slice.append g arrays ⟨s.array, i, i⟩ (subs.drop (i + 1))).2.cap ∨
      (Slice.append g arrays ⟨s.array, i, i⟩ (subs.drop (i + 1))).2.array = arrays.length := by
  cases rest : subs.drop (i + 1) with
  | nil =>
    rw [append_nothing (holds.clip within.le)]
    exact .inl rfl
  | cons x xs =>
    rw [Slice.append_of_grows (by simp)]
    exact .inr rfl

end Append

end GraphWeave.Slice
