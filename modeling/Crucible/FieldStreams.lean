import Mathlib.Data.List.Forall2

/-!
# Fields written one after another

A record of several fields is often fed to a hash by writing the fields one
after another, without lengths or separators.  Two records give the same stream
exactly when they are equal, or one continues the other by empty fields, or
the end of some field of one is the beginning of what follows in the other.

Where only some of the fields are known, and the others by their lengths, what is
known of the stream is a mask.  Two masks are those of one stream unless they
clash.
-/

namespace FieldStreams

variable {α : Type*}

/-- The first fields that differ do so in that the end of one of them is what
the other record goes on with. -/
inductive Shifted : List (List α) → List (List α) → Prop where
  | later (field : List α) {rest rest' : List (List α)} (shifted : Shifted rest rest') :
      Shifted (field :: rest) (field :: rest')
  | shorter (field moved : List α) {rest rest' : List (List α)} (nonempty : moved ≠ [])
      (continues : rest.flatten = moved ++ rest'.flatten) :
      Shifted (field :: rest) ((field ++ moved) :: rest')
  | longer (field moved : List α) {rest rest' : List (List α)} (nonempty : moved ≠ [])
      (continues : rest'.flatten = moved ++ rest.flatten) :
      Shifted ((field ++ moved) :: rest) (field :: rest')

/-- One record continues the other by empty fields. -/
def Padded (fields fields' : List (List α)) : Prop :=
  ∃ blanks : List (List α), blanks ≠ [] ∧ blanks.flatten = [] ∧
    (fields = fields' ++ blanks ∨ fields' = fields ++ blanks)

theorem Shifted.flatten_eq {fields fields' : List (List α)} (shifted : Shifted fields fields') :
    fields.flatten = fields'.flatten := by
  induction shifted with
  | later field shifted ih => simp [ih]
  | shorter field moved nonempty continues => simp [continues]
  | longer field moved nonempty continues => simp [continues]

theorem Shifted.ne {fields fields' : List (List α)} (shifted : Shifted fields fields') :
    fields ≠ fields' := by
  induction shifted with
  | later field shifted ih => simpa using ih
  | shorter field moved nonempty continues =>
      intro same
      have equal := (List.cons.inj same).1
      exact nonempty (List.append_right_eq_self.mp equal.symm)
  | longer field moved nonempty continues =>
      intro same
      have equal := (List.cons.inj same).1
      exact nonempty (List.append_right_eq_self.mp equal)

/-- Records of fields of the same lengths have not shifted. -/
theorem Shifted.lengths_ne {fields fields' : List (List α)} (shifted : Shifted fields fields') :
    fields.map List.length ≠ fields'.map List.length := by
  have longer : ∀ field moved : List α, moved ≠ [] → field.length < (field ++ moved).length := by
    intro field moved nonempty
    have some := List.length_pos_iff.mpr nonempty
    rw [List.length_append]
    omega
  induction shifted with
  | later field shifted ih => simpa using ih
  | shorter field moved nonempty continues =>
      intro same
      exact (Nat.ne_of_lt (longer field moved nonempty)) (List.cons.inj same).1
  | longer field moved nonempty continues =>
      intro same
      exact (Nat.ne_of_gt (longer field moved nonempty)) (List.cons.inj same).1

theorem append_split {first second rest rest' : List α} (distinct : first ≠ second)
    (same : first ++ rest = second ++ rest') :
    (∃ moved, moved ≠ [] ∧ second = first ++ moved ∧ rest = moved ++ rest') ∨
      ∃ moved, moved ≠ [] ∧ first = second ++ moved ∧ rest' = moved ++ rest := by
  obtain ⟨moved, longer, continues⟩ | ⟨moved, longer, continues⟩ :=
    List.append_eq_append_iff.mp same
  · refine Or.inl ⟨moved, ?_, longer, continues⟩
    rintro rfl
    exact distinct (by simpa using longer.symm)
  · refine Or.inr ⟨moved, ?_, longer, continues⟩
    rintro rfl
    exact distinct (by simpa using longer)

/-- When two records give the same stream. -/
theorem flatten_eq_flatten_iff {fields fields' : List (List α)} :
    fields.flatten = fields'.flatten ↔
      fields = fields' ∨ Shifted fields fields' ∨ Padded fields fields' := by
  constructor
  · intro same
    induction fields generalizing fields' with
    | nil =>
        cases fields' with
        | nil => exact Or.inl rfl
        | cons field fields' =>
            exact Or.inr (Or.inr ⟨field :: fields', List.cons_ne_nil _ _, same.symm, Or.inr rfl⟩)
    | cons field fields ih =>
        cases fields' with
        | nil =>
            exact Or.inr (Or.inr ⟨field :: fields, List.cons_ne_nil _ _, same, Or.inl rfl⟩)
        | cons field' fields' =>
            rw [List.flatten_cons, List.flatten_cons] at same
            by_cases equal : field = field'
            · subst equal
              obtain rfl | shifted | ⟨blanks, nonempty, blank, extends_⟩ :=
                ih (List.append_cancel_left same)
              · exact Or.inl rfl
              · exact Or.inr (Or.inl (.later field shifted))
              · exact Or.inr (Or.inr ⟨blanks, nonempty, blank,
                  extends_.imp (congrArg (field :: ·)) (congrArg (field :: ·))⟩)
            · obtain ⟨moved, nonempty, rfl, continues⟩ | ⟨moved, nonempty, rfl, continues⟩ :=
                append_split equal same
              · exact Or.inr (Or.inl (.shorter field moved nonempty continues))
              · exact Or.inr (Or.inl (.longer field' moved nonempty continues))
  · rintro (rfl | shifted | ⟨blanks, _, blank, rfl | rfl⟩)
    · rfl
    · exact shifted.flatten_eq
    · simp [blank]
    · simp [blank]

/-! ## Masks -/

/-- A symbol in the place of a cell that knows it or leaves it open. -/
def Fits (cell : Option α) (symbol : α) : Prop :=
  ∀ known ∈ cell, known = symbol

/-- The lengths differ, or both masks know the symbol at some position and it is
not the same one. -/
def Clash (mask mask' : List (Option α)) : Prop :=
  mask.length ≠ mask'.length ∨
    ∃ (index : Nat) (known known' : α), mask[index]? = some (some known) ∧
      mask'[index]? = some (some known') ∧ known ≠ known'

section Masks

variable {mask mask' : List (Option α)} {stream : List α}

theorem fits_known_append {field : List α} :
    List.Forall₂ Fits (field.map some ++ mask) stream ↔
      ∃ rest, stream = field ++ rest ∧ List.Forall₂ Fits mask rest := by
  induction field generalizing stream with
  | nil => simp
  | cons symbol field ih =>
      rw [List.map_cons, List.cons_append, List.forall₂_cons_left_iff]
      constructor
      · rintro ⟨symbol', tail, fits, fitted, rfl⟩
        obtain ⟨rest, rfl, left⟩ := ih.mp fitted
        obtain rfl := fits symbol rfl
        exact ⟨rest, rfl, left⟩
      · rintro ⟨rest, rfl, left⟩
        exact ⟨symbol, field ++ rest, fun _ known => (Option.some.inj known).symm,
          ih.mpr ⟨rest, rfl, left⟩, rfl⟩

theorem fits_open_append {size : Nat} :
    List.Forall₂ Fits (List.replicate size none ++ mask) stream ↔
      ∃ field rest, stream = field ++ rest ∧ field.length = size ∧
        List.Forall₂ Fits mask rest := by
  induction size generalizing stream with
  | zero => simp [List.length_eq_zero_iff]
  | succ size ih =>
      rw [List.replicate_succ, List.cons_append, List.forall₂_cons_left_iff]
      constructor
      · rintro ⟨symbol, tail, _, fitted, rfl⟩
        obtain ⟨field, rest, rfl, sized, left⟩ := ih.mp fitted
        exact ⟨symbol :: field, rest, rfl, by simp [sized], left⟩
      · rintro ⟨field, rest, rfl, sized, left⟩
        cases field with
        | nil => cases sized
        | cons symbol field =>
            exact ⟨symbol, field ++ rest, (fun _ known => by cases known),
              ih.mpr ⟨field, rest, rfl, Nat.succ.inj sized, left⟩, rfl⟩

theorem not_clash_self : ¬ Clash mask mask := by
  rintro (lengths | ⟨index, known, known', here, here', distinct⟩)
  · exact lengths rfl
  · exact distinct (Option.some.inj (Option.some.inj (here.symm.trans here')))

theorem getElem?_of_fits {index : Nat} {known : α} (fits : List.Forall₂ Fits mask stream)
    (here : mask[index]? = some (some known)) : stream[index]? = some known := by
  induction fits generalizing index with
  | nil => cases here
  | @cons cell symbol mask stream fit _ ih =>
      cases index with
      | zero =>
          rw [List.getElem?_cons_zero] at here ⊢
          rw [fit known (Option.some.inj here)]
      | succ index =>
          rw [List.getElem?_cons_succ] at here ⊢
          exact ih here

/-- Masks that do not clash are those of one stream. -/
theorem exists_fits_iff [Inhabited α] :
    (∃ stream, List.Forall₂ Fits mask stream ∧ List.Forall₂ Fits mask' stream) ↔
      ¬ Clash mask mask' := by
  constructor
  · rintro ⟨stream, fits, fits'⟩ (lengths | ⟨index, known, known', here, here', distinct⟩)
    · exact lengths (fits.length_eq.trans fits'.length_eq.symm)
    · exact distinct (Option.some.inj
        ((getElem?_of_fits fits here).symm.trans (getElem?_of_fits fits' here')))
  · intro peaceful
    induction mask generalizing mask' with
    | nil =>
        have empty : mask' = [] := by
          by_contra nonempty
          exact peaceful (Or.inl fun same => nonempty (List.length_eq_zero_iff.mp same.symm))
        exact ⟨[], .nil, empty ▸ .nil⟩
    | cons cell mask ih =>
        cases mask' with
        | nil => exact absurd (Or.inl (by simp)) peaceful
        | cons cell' mask' =>
            have later : ¬ Clash mask mask' := by
              rintro (lengths | ⟨index, known, known', here, here', distinct⟩)
              · exact peaceful (Or.inl (by simpa using lengths))
              · exact peaceful (Or.inr ⟨index + 1, known, known', here, here', distinct⟩)
            have agree : ∀ known ∈ cell, ∀ known' ∈ cell', known = known' := by
              rintro known rfl known' rfl
              by_contra distinct
              exact peaceful (Or.inr ⟨0, known, known', rfl, rfl, distinct⟩)
            obtain ⟨stream, fits, fits'⟩ := ih later
            cases cell with
            | some known =>
                exact ⟨known :: stream, .cons (fun _ same => (Option.some.inj same).symm) fits,
                  .cons (fun known' here => (agree known rfl known' here).symm) fits'⟩
            | none =>
                exact ⟨cell'.getD default :: stream, .cons (fun _ here => by cases here) fits,
                  .cons (fun known' here => by rw [Option.mem_def.mp here]; rfl) fits'⟩

end Masks

end FieldStreams
