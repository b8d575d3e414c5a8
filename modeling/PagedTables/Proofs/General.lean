import Mathlib.Data.List.Basic
import Mathlib.Data.String.Basic

/-! Facts about results, lists and texts that say nothing of tables. -/

namespace PagedTables

section results

variable {ε ε' α β γ : Type}

theorem bind_ok_iff {x : Except ε α} {f : α → Except ε β} {b : β} :
    x >>= f = .ok b ↔ ∃ a, x = .ok a ∧ f a = .ok b := by
  cases x with
  | error e =>
    constructor
    · intro h
      cases h
    · rintro ⟨_, h, _⟩
      cases h
  | ok a =>
    constructor
    · exact fun h => ⟨a, rfl, h⟩
    · rintro ⟨_, h, hf⟩
      cases h
      exact hf

theorem bind_error_iff {x : Except ε α} {f : α → Except ε β} {e : ε} :
    x >>= f = .error e ↔ x = .error e ∨ ∃ a, x = .ok a ∧ f a = .error e := by
  cases x with
  | error e' =>
    constructor
    · intro h
      cases h
      exact .inl rfl
    · rintro (h | ⟨_, h, _⟩)
      · cases h
        rfl
      · cases h
  | ok a =>
    constructor
    · exact fun h => .inr ⟨a, rfl, h⟩
    · rintro (h | ⟨_, h, hf⟩)
      · cases h
      · cases h
        exact hf

theorem map_ok_iff {x : Except ε α} {g : α → β} {b : β} :
    x.map g = .ok b ↔ ∃ a, x = .ok a ∧ b = g a := by
  cases x with
  | error e =>
    constructor
    · intro h
      cases h
    · rintro ⟨_, h, _⟩
      cases h
  | ok a =>
    constructor
    · intro h
      cases h
      exact ⟨a, rfl, rfl⟩
    · rintro ⟨_, h, rfl⟩
      cases h
      rfl

theorem map_error_iff {x : Except ε α} {g : α → β} {e : ε} :
    x.map g = .error e ↔ x = .error e := by
  cases x with
  | error e' =>
    constructor
    · intro h
      cases h
      rfl
    · intro h
      cases h
      rfl
  | ok a =>
    constructor
    · intro h
      cases h
    · intro h
      cases h

theorem map_bind_eq (x : Except ε α) (f : α → Except ε β) (g : β → γ) :
    (x >>= f).map g = x >>= fun a => (f a).map g := by
  cases x <;> rfl

theorem bind_map_eq (x : Except ε α) (g : α → β) (f : β → Except ε γ) :
    x.map g >>= f = x >>= fun a => f (g a) := by
  cases x <;> rfl

theorem mapError_ok_iff {x : Except ε α} {f : ε → ε'} {a : α} :
    x.mapError f = .ok a ↔ x = .ok a := by
  cases x with
  | error e =>
    constructor
    · intro h
      cases h
    · intro h
      cases h
  | ok b =>
    constructor
    · intro h
      cases h
      rfl
    · intro h
      cases h
      rfl

theorem mapError_error_iff {x : Except ε α} {f : ε → ε'} {e' : ε'} :
    x.mapError f = .error e' ↔ ∃ e, x = .error e ∧ e' = f e := by
  cases x with
  | error e =>
    constructor
    · intro h
      cases h
      exact ⟨e, rfl, rfl⟩
    · rintro ⟨_, h, rfl⟩
      cases h
      rfl
  | ok a =>
    constructor
    · intro h
      cases h
    · rintro ⟨_, h, _⟩
      cases h

end results

section lists

variable {α β : Type} {p : α → Bool} {l : List α} {n : Nat} {a b : α}

theorem getElem?_modify_ite (l : List α) (n m : Nat) (f : α → α) :
    (l.modify n f)[m]? = if n = m then (l[m]?).map f else l[m]? := by
  rw [List.getElem?_modify]
  split <;> simp

theorem modify_congr {f g : α → α}
    (h : ∀ a, l[n]? = some a → f a = g a) : l.modify n f = l.modify n g := by
  apply List.ext_getElem?
  intro m
  rw [List.getElem?_modify, List.getElem?_modify]
  by_cases hn : n = m
  · subst hn
    cases ha : l[n]? with
    | none => rfl
    | some a => simp [h a ha]
  · simp [hn]

theorem set_eq_modify (f : α → α) (h : l[n]? = some a) :
    l.set n (f a) = l.modify n f := by
  obtain ⟨hlt, rfl⟩ := List.getElem?_eq_some_iff.mp h
  apply List.ext_getElem?
  intro m
  by_cases hn : n = m
  · subst hn
    simp [hlt]
  · simp [hn]

/-- The same change at two places can be made in either order. -/
theorem modify_swap (l : List α) (f : α → α) (n m : Nat) :
    (l.modify n f).modify m f = (l.modify m f).modify n f := by
  apply List.ext_getElem?
  intro k
  simp only [List.getElem?_modify]
  by_cases hn : n = k <;> by_cases hm : m = k <;> simp [hn, hm]

theorem map_modify_of_keeps {f : α → α} {g : α → β} (l : List α) (n : Nat)
    (hf : ∀ a, g (f a) = g a) : (l.modify n f).map g = l.map g := by
  apply List.ext_getElem?
  intro m
  rw [List.getElem?_map, List.getElem?_map, List.getElem?_modify]
  cases l[m]? with
  | none => rfl
  | some a =>
    by_cases hn : n = m
    · simp [hn, hf]
    · simp [hn]

/-- An element of the longer list was there before, or is the one that was added. -/
theorem getElem?_concat_cases
    (h : (l ++ [a])[n]? = some b) : l[n]? = some b ∨ n = l.length ∧ b = a := by
  rcases Nat.lt_or_ge n l.length with hlt | hge
  · exact .inl (by rwa [List.getElem?_append_left hlt] at h)
  · rw [List.getElem?_append_right hge, List.getElem?_singleton] at h
    split at h
    next h0 => exact .inr ⟨by omega, (Option.some.inj h).symm⟩
    next => cases h

/-- Something with `P` comes, and after it everything has `Q`: it is the last, or came before it. -/
theorem since_concat_iff {P Q : α → Prop} :
    (∃ before x after, l ++ [a] = before ++ x :: after ∧ P x ∧ ∀ y ∈ after, Q y) ↔
      P a ∨ Q a ∧ ∃ before x after, l = before ++ x :: after ∧ P x ∧ ∀ y ∈ after, Q y := by
  constructor
  · rintro ⟨before, x, after, heq, hx, hafter⟩
    rcases List.eq_nil_or_concat after with rfl | ⟨after, z, rfl⟩
    · obtain ⟨rfl, hax⟩ := List.append_inj' heq rfl
      cases List.singleton_inj.mp hax
      exact .inl hx
    · rw [List.concat_eq_append] at heq hafter
      rw [← List.cons_append, ← List.append_assoc] at heq
      obtain ⟨rfl, haz⟩ := List.append_inj' heq rfl
      cases List.singleton_inj.mp haz
      exact .inr ⟨hafter a (by simp), before, x, after, rfl, hx,
        fun y hy => hafter y (by simp [hy])⟩
  · rintro (ha | ⟨ha, before, x, after, rfl, hx, hafter⟩)
    · exact ⟨l, a, [], rfl, ha, by simp⟩
    · refine ⟨before, x, after ++ [a], by simp, hx, fun y hy => ?_⟩
      rcases List.mem_append.mp hy with hy | hy
      · exact hafter y hy
      · cases List.mem_singleton.mp hy
        exact ha

/-- An element that passes comes after as many as have passed before it. -/
theorem filter_getElem?_countPBefore (h : l[n]? = some a) (ha : p a = true) :
    (l.filter p)[l.countPBefore p n]? = some a := by
  induction l generalizing n with
  | nil => simp at h
  | cons x l ih =>
    cases n with
    | zero =>
      cases Option.some.inj h
      simp [ha]
    | succ n =>
      have hrest := ih (n := n) (by simpa using h)
      by_cases hx : p x = true
      · simpa [hx] using hrest
      · simpa [hx] using hrest

theorem filter_set_of_pos (h : l[n]? = some a) (ha : p a = true) (hb : p b = true) :
    (l.set n b).filter p = (l.filter p).set (l.countPBefore p n) b := by
  induction l generalizing n with
  | nil => simp at h
  | cons x l ih =>
    cases n with
    | zero =>
      cases Option.some.inj h
      simp [ha, hb]
    | succ n =>
      have hrest := ih (n := n) (by simpa using h)
      by_cases hx : p x = true
      · simp [hx, hrest]
      · simp [hx, hrest]

theorem filter_set_of_neg (h : l[n]? = some a) (ha : p a = false) (hb : p b = false) :
    (l.set n b).filter p = l.filter p := by
  induction l generalizing n with
  | nil => simp at h
  | cons x l ih =>
    cases n with
    | zero =>
      cases Option.some.inj h
      simp [ha, hb]
    | succ n =>
      have hrest := ih (n := n) (by simpa using h)
      by_cases hx : p x = true
      · simp [hx, hrest]
      · simp [hx, hrest]

/-- As many pass before a place when an element gives way to one that passes alike. -/
theorem countPBefore_set (h : l[n]? = some a) (hp : p b = p a) (m : Nat) :
    (l.set n b).countPBefore p m = l.countPBefore p m := by
  induction l generalizing n m with
  | nil => simp at h
  | cons x l ih =>
    cases m with
    | zero => simp
    | succ m =>
      cases n with
      | zero =>
        cases Option.some.inj h
        simp [hp]
      | succ n => simp [ih (n := n) (by simpa using h) m]

theorem countPBefore_append {l' : List α} (hn : n ≤ l.length) :
    (l ++ l').countPBefore p n = l.countPBefore p n := by
  rw [List.countPBefore_eq_countP_take, List.countPBefore_eq_countP_take,
    List.take_append_of_le_length hn]

theorem countPBefore_all (hl : ∀ x ∈ l, p x = true) (hn : n ≤ l.length) :
    l.countPBefore p n = n := by
  rw [List.countPBefore_eq_countP_take,
    List.countP_eq_length.mpr (fun x hx => hl x (List.mem_of_mem_take hx)),
    List.length_take_of_le hn]

theorem findIdxNth_filter_lt_iff : (l.filter p).findIdxNth p n < (l.filter p).length ↔
    l.findIdxNth p n < l.length := by
  rw [List.findIdxNth_lt_length_iff, List.findIdxNth_lt_length_iff, List.countP_filter]
  simp

/-- Among those that pass, number `n` is the `n`-th that passes. -/
theorem findIdxNth_filter (h : l.findIdxNth p n < l.length) : (l.filter p).findIdxNth p n = n := by
  have hlt : n < (l.filter p).length := by
    rw [← List.countP_eq_length_filter]
    exact List.findIdxNth_lt_length_iff.mp h
  have hall : ∀ x ∈ l.filter p, p x = true := fun x hx => (List.mem_filter.mp hx).2
  have hn := List.findIdxNth_countPBefore_of_lt_length_of_pos (h := hlt)
    (hall _ (List.getElem_mem hlt))
  rwa [countPBefore_all hall (Nat.le_of_lt hlt)] at hn

end lists

/-- A text of one-byte characters, none of which begins the separator, is one piece. -/
theorem splitOn_of_absent {s sep : String} (hsep : sep ≠ "")
    (h : ∀ n < s.utf8ByteSize, String.Pos.Raw.get s ⟨n⟩ ≠ String.Pos.Raw.get sep 0 ∧
      String.Pos.Raw.next s ⟨n⟩ = ⟨n + 1⟩) : s.splitOn sep = [s] := by
  have hskip : ∀ n ≤ s.utf8ByteSize, s.splitOn sep = s.splitOnAux sep 0 ⟨n⟩ 0 [] := by
    intro n
    induction n with
    | zero =>
      intro _
      have hne : (sep == "") = false := beq_eq_false_iff_ne.mpr hsep
      simp only [String.splitOn, hne]
      rfl
    | succ n ih =>
      intro hn
      obtain ⟨hget, hnext⟩ := h n hn
      have hend : ¬ String.Pos.Raw.atEnd s ⟨n⟩ = true := by
        simp [String.Pos.Raw.atEnd]
        omega
      have hstay : (⟨n⟩ : String.Pos.Raw).unoffsetBy 0 = ⟨n⟩ := rfl
      rw [ih (Nat.le_of_succ_le hn), String.splitOnAux, if_neg hend, if_neg (by simpa using hget),
        hstay, hnext]
  rw [hskip _ (Nat.le_refl _), String.splitOnAux, if_pos (by simp [String.Pos.Raw.atEnd])]
  exact congrArg (fun t => [t]) s.extract_zero_rawEndPos

end PagedTables
