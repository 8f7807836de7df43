import San.FiniteMap

/-! # Keeping the first element of each key

`retainUnseen` is the loop that drops an element when its key has been seen before.  What it
keeps is a sublist with one element for each new key, the first one of the list, and a list
without repeated keys is kept as it is.
-/

section
variable {α κ : Type} [DecidableEq κ] (key : α → κ)

/-- Keep the first element of each key that is not in `seen`. -/
def retainUnseen (seen : Finset κ) : List α → List α
  | [] => []
  | a :: l =>
      if key a ∈ seen then retainUnseen seen l
      else a :: retainUnseen (insert (key a) seen) l

theorem retainUnseen_sublist (seen : Finset κ) (l : List α) :
    (retainUnseen key seen l).Sublist l := by
  induction l generalizing seen with
  | nil => exact List.Sublist.refl _
  | cons a l ih =>
    unfold retainUnseen
    split
    · exact (ih seen).cons a
    · exact (ih _).cons_cons a

/-- The keys that are kept are the new ones. -/
theorem mem_keys_retainUnseen {seen : Finset κ} {l : List α} {k : κ} :
    k ∈ (retainUnseen key seen l).map key ↔ k ∈ l.map key ∧ k ∉ seen := by
  induction l generalizing seen with
  | nil => simp [retainUnseen]
  | cons a l ih =>
    unfold retainUnseen
    rw [List.map_cons, List.mem_cons]
    by_cases ha : key a ∈ seen
    · rw [if_pos ha, ih]
      constructor
      · rintro ⟨hk, hseen⟩
        exact ⟨.inr hk, hseen⟩
      · rintro ⟨rfl | hk, hseen⟩
        · exact absurd ha hseen
        · exact ⟨hk, hseen⟩
    · rw [if_neg ha, List.map_cons, List.mem_cons, ih, Finset.mem_insert]
      constructor
      · rintro (rfl | ⟨hk, hseen⟩)
        · exact ⟨.inl rfl, ha⟩
        · exact ⟨.inr hk, fun h => hseen (.inr h)⟩
      · rintro ⟨hk, hseen⟩
        by_cases hka : k = key a
        · exact .inl hka
        · exact .inr ⟨hk.resolve_left hka, fun h => h.elim hka hseen⟩

theorem nodup_keys_retainUnseen (seen : Finset κ) (l : List α) :
    ((retainUnseen key seen l).map key).Nodup := by
  induction l generalizing seen with
  | nil => exact List.nodup_nil
  | cons a l ih =>
    unfold retainUnseen
    split
    · exact ih seen
    · refine List.nodup_cons.mpr ⟨fun h => ?_, ih _⟩
      exact ((mem_keys_retainUnseen key).mp h).2 (Finset.mem_insert_self _ _)

/-- A list without repeated keys is kept as it is. -/
theorem retainUnseen_eq_self {seen : Finset κ} {l : List α} (hnodup : (l.map key).Nodup)
    (hseen : ∀ a ∈ l, key a ∉ seen) : retainUnseen key seen l = l := by
  induction l generalizing seen with
  | nil => rfl
  | cons a l ih =>
    obtain ⟨ha, hl⟩ := List.nodup_cons.mp hnodup
    unfold retainUnseen
    rw [if_neg (hseen a List.mem_cons_self), ih hl]
    intro b hb hmem
    rcases Finset.mem_insert.mp hmem with hba | hbs
    · exact ha (hba ▸ List.mem_map_of_mem hb)
    · exact hseen b (List.mem_cons_of_mem _ hb) hbs

/-- The first element of the list is kept unless its key was seen. -/
theorem head_mem_retainUnseen {seen : Finset κ} {a : α} (l : List α) (ha : key a ∉ seen) :
    a ∈ retainUnseen key seen (a :: l) := by
  unfold retainUnseen
  rw [if_neg ha]
  exact List.mem_cons_self

end
