import PagedTables.Json.Document
import PagedTables.Proofs.General

namespace PagedTables

namespace Number

theorem toNat?_ofNat {n : Nat} (h : n < 1 <<< 64) : (ofNat n).toNat? = some n := by
  unfold ofNat
  by_cases hlt : n < 1 <<< 63
  · have hint : (Int64.ofNat n).toInt = n := Int64.toInt_ofNat_of_lt hlt
    simp only [if_pos hlt, toNat?, hint, Int.natCast_nonneg, if_true, Int.toNat_natCast]
  · rw [if_neg hlt, dif_pos h, dif_pos (Nat.not_lt.mp hlt)]
    exact congrArg some UInt64.toNat_ofNatLT

theorem toNat?_lt {n : Number} {k : Nat} (h : n.toNat? = some k) : k < 1 <<< 64 := by
  cases n with
  | int i =>
    simp only [toNat?] at h
    split at h
    next =>
      have hle : i.toInt ≤ 9223372036854775807 := i.toInt_le
      have hmax : 1 <<< 64 = 18446744073709551616 := rfl
      cases Option.some.inj h
      omega
    next => cases h
  | large n above =>
    cases Option.some.inj h
    exact n.toNat_lt
  | double => cases h

end Number

namespace KeyMap

variable {α : Type}

theorem insert_of_forall_lt {m : KeyMap α} {key : String} (h : ∀ e ∈ m, e.1 < key) (a : α) :
    m.insert key a = m ++ [(key, a)] := by
  induction m with
  | nil => rfl
  | cons e m ih =>
    obtain ⟨k, b⟩ := e
    have hk : k < key := h (k, b) List.mem_cons_self
    have hlt : ¬ key < k := String.lt_asymm hk
    have hne : key ≠ k := fun heq => String.lt_irrefl k (heq ▸ hk)
    simp only [insert, if_neg hlt, if_neg hne, List.cons_append]
    rw [ih (fun e he => h e (List.mem_cons_of_mem _ he))]

/-- Entries that are in order stay as they are. -/
theorem ofList_of_sorted {m : KeyMap α} (hs : m.Sorted) : ofList m = m := by
  suffices ∀ before : KeyMap α, Sorted (before ++ m) →
      m.foldl (fun m e => m.insert e.1 e.2) before = before ++ m from this [] hs
  induction m with
  | nil => exact fun before _ => (List.append_nil before).symm
  | cons e m ih =>
    intro before hb
    have hlt : ∀ f ∈ before, f.1 < e.1 := by
      intro f hf
      rw [Sorted, List.map_append, List.map_cons, List.pairwise_append] at hb
      exact hb.2.2 f.1 (List.mem_map_of_mem hf) e.1 List.mem_cons_self
    have hsplit : before ++ e :: m = before ++ [e] ++ m := by simp
    rw [List.foldl_cons, insert_of_forall_lt hlt, hsplit]
    refine ih (sorted_cons.mp hs).2 _ ?_
    rwa [← hsplit]

theorem mem_of_mem_ofList {entries : List (String × α)} {e : String × α} (h : e ∈ ofList entries) :
    e ∈ entries := by
  suffices ∀ m : KeyMap α, e ∈ entries.foldl (fun m e => m.insert e.1 e.2) m → e ∈ m ∨ e ∈ entries by
    rcases this [] h with hnil | hmem
    · cases hnil
    · exact hmem
  clear h
  induction entries with
  | nil => exact fun m hm => .inl hm
  | cons f entries ih =>
    intro m hm
    rcases ih _ hm with hins | hmem
    · rcases mem_insert hins with rfl | hold
      · exact .inr List.mem_cons_self
      · exact .inl hold
    · exact .inr (List.mem_cons_of_mem _ hmem)

end KeyMap

namespace Json

theorem sortedMembers_iff {members : List (String × Json)} :
    SortedMembers members ↔ ∀ e ∈ members, e.2.Sorted := by
  induction members with
  | nil => simp [SortedMembers]
  | cons e members ih =>
    obtain ⟨k, v⟩ := e
    simp only [SortedMembers, ih, List.forall_mem_cons]

theorem sorted_object {members : List (String × Json)} (h : SortedMembers members) :
    (object members).Sorted := by
  refine ⟨KeyMap.sorted_ofList members, sortedMembers_iff.mpr (fun e he => ?_)⟩
  exact sortedMembers_iff.mp h e (KeyMap.mem_of_mem_ofList he)

mutual

/-- A value is read back from the document that stands for it. -/
theorem value_document : ∀ v : Json, v.Sorted → v.document.value none = .ok v
  | null, _ => rfl
  | bool _, _ => rfl
  | num _, _ => rfl
  | str _, _ => rfl
  | arr items, h => by
    simp only [document, Document.value, bind_ok_iff]
    exact ⟨none, rfl, items, values_itemDocuments items h, (), rfl, rfl⟩
  | obj members, h => by
    obtain ⟨hs, hm⟩ := h
    simp only [document, Document.value, bind_ok_iff]
    refine ⟨none, rfl, members, memberValues_memberDocuments members hm, (), rfl, ?_⟩
    exact congrArg (fun ms => Except.ok (obj ms)) (KeyMap.ofList_of_sorted hs)

theorem values_itemDocuments : ∀ vs : List Json, SortedItems vs →
    Document.values none (itemDocuments vs) = .ok vs
  | [], _ => rfl
  | v :: vs, h => by
    simp only [itemDocuments, Document.values, bind_ok_iff]
    exact ⟨v, value_document v h.1, vs, values_itemDocuments vs h.2, rfl⟩

theorem memberValues_memberDocuments : ∀ ms : List (String × Json), SortedMembers ms →
    Document.memberValues none (memberDocuments ms) = .ok ms
  | [], _ => rfl
  | (k, v) :: ms, h => by
    simp only [memberDocuments, Document.memberValues, bind_ok_iff]
    exact ⟨v, value_document v h.1, ms, memberValues_memberDocuments ms h.2, rfl⟩

end

end Json

namespace Document

mutual

/-- Whatever is read has its keys in order. -/
theorem sorted_of_value : ∀ (d : Document) {levels : Levels} {v : Json}, d.value levels = .ok v →
    v.Sorted
  | null, _, _, h => by cases h; trivial
  | bool _, _, _, h => by cases h; trivial
  | num _, _, _, h => by cases h; trivial
  | str _, _, _, h => by cases h; trivial
  | arr items stop, _, _, h => by
    simp only [value, bind_ok_iff] at h
    obtain ⟨_, _, vs, hvs, _, _, h⟩ := h
    cases h
    exact sorted_of_values items hvs
  | obj members stop, _, _, h => by
    simp only [value, bind_ok_iff] at h
    obtain ⟨_, _, ms, hms, _, _, h⟩ := h
    cases h
    exact Json.sorted_object (sorted_of_memberValues members hms)
  | spoiled, _, _, h => nomatch h
  | broken _, _, _, h => nomatch h

theorem sorted_of_values : ∀ (ds : List Document) {levels : Levels} {vs : List Json},
    values levels ds = .ok vs → Json.SortedItems vs
  | [], _, _, h => by cases h; trivial
  | d :: ds, _, _, h => by
    simp only [values, bind_ok_iff] at h
    obtain ⟨v, hv, vs, hvs, h⟩ := h
    cases h
    exact ⟨sorted_of_value d hv, sorted_of_values ds hvs⟩

theorem sorted_of_memberValues : ∀ (ds : List (Option String × Document)) {levels : Levels}
    {ms : List (String × Json)}, memberValues levels ds = .ok ms → Json.SortedMembers ms
  | [], _, _, h => by cases h; trivial
  | (none, _) :: _, _, _, h => nomatch h
  | (some k, d) :: ds, _, _, h => by
    simp only [memberValues, bind_ok_iff] at h
    obtain ⟨v, hv, ms, hms, h⟩ := h
    cases h
    exact ⟨sorted_of_value d hv, sorted_of_memberValues ds hms⟩

end

end Document

end PagedTables
