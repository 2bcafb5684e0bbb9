import Mathlib.Data.List.Infix

/-!
# Paths with a part for the directory above

A position in a tree of directories is the list of names from the root.  A path
is a list of parts, one of which, the parent, leads to the directory above; at
the root it leads nowhere.  The normal form of a path says how far it climbs
and which names it descends from there.
-/

namespace PathWalks

variable {Part : Type*} [DecidableEq Part] (parent : Part)

/-- Where one part leads. -/
def follow (position : List Part) (part : Part) : List Part :=
  if part = parent then position.dropLast else position ++ [part]

def resolve (position parts : List Part) : List Part :=
  parts.foldl (follow parent) position

/-- The positions on the way, without the first one. -/
def visited : List Part → List Part → List (List Part)
  | _, [] => []
  | position, part :: parts =>
      follow parent position part :: visited (follow parent position part) parts

@[ext]
structure NormalForm (Part : Type*) where
  climbs : Nat
  names : List Part
  deriving DecidableEq

namespace NormalForm

/-- The normal form of a path with one more part. -/
def append (rooted : Bool) (form : NormalForm Part) (part : Part) : NormalForm Part :=
  if part = parent then
    if form.names = [] then
      { form with climbs := if rooted then 0 else form.climbs + 1 }
    else
      { form with names := form.names.dropLast }
  else
    { form with names := form.names ++ [part] }

/-- Where a normal form leads. -/
def place {Part : Type*} (base : List Part) (form : NormalForm Part) : List Part :=
  base.take (base.length - form.climbs) ++ form.names

end NormalForm

/-- The normal form of a path, which may be `rooted`. -/
def normalForm (rooted : Bool) (parts : List Part) : NormalForm Part :=
  parts.foldl (NormalForm.append parent rooted) ⟨0, []⟩

/-- A path that can be the path of a file: it ends with a name, and does not
lead through the place where it ends. -/
def NamesFile (rooted : Bool) (parts : List Part) : Prop :=
  parts.getLast? ≠ none ∧ parts.getLast? ≠ some parent ∧
    ∀ before ∈ parts.dropLast.inits, normalForm parent rooted before ≠
      normalForm parent rooted parts

instance (rooted : Bool) (parts : List Part) : Decidable (NamesFile parent rooted parts) :=
  inferInstanceAs (Decidable (_ ∧ _ ∧ _))

section Walks

variable {parent}

theorem mem_visited {place position parts : List Part} :
    place ∈ visited parent position parts ↔
      ∃ before, before <+: parts ∧ before ≠ [] ∧ resolve parent position before = place := by
  induction parts generalizing position with
  | nil => simp [visited]
  | cons part parts ih =>
      rw [visited, List.mem_cons, ih]
      constructor
      · rintro (rfl | ⟨before, initial, _, rfl⟩)
        · exact ⟨[part], by simp, by simp, rfl⟩
        · exact ⟨part :: before, (List.cons_prefix_cons.mpr ⟨rfl, initial⟩), by simp, rfl⟩
      · rintro ⟨before, initial, nonempty, rfl⟩
        cases before with
        | nil => exact absurd rfl nonempty
        | cons first before =>
            obtain ⟨rfl, shorter⟩ := List.cons_prefix_cons.mp initial
            by_cases last : before = []
            · exact Or.inl (by rw [last]; rfl)
            · exact Or.inr ⟨before, shorter, last, rfl⟩

theorem resolve_append (position first second : List Part) :
    resolve parent position (first ++ second) =
      resolve parent (resolve parent position first) second :=
  List.foldl_append

theorem resolve_concat {name : Part} (proper : name ≠ parent) (position parts : List Part) :
    resolve parent position (parts ++ [name]) = resolve parent position parts ++ [name] := by
  rw [resolve_append]
  exact if_neg proper

theorem NormalForm.follow_place {rooted : Bool} {base : List Part}
    (root : rooted = true → base = []) (form : NormalForm Part) (part : Part) :
    follow parent (form.place base) part = (form.append parent rooted part).place base := by
  unfold follow append place
  split
  case isFalse => simp
  case isTrue =>
    split
    case isFalse below => simp [List.dropLast_append_of_ne_nil below]
    case isTrue top =>
      cases rooted with
      | true => simp [root rfl, top]
      | false =>
          simp only [top, List.append_nil, Bool.false_eq_true, if_false]
          rw [List.dropLast_eq_take, List.take_take, List.length_take]
          congr 1
          omega

theorem resolve_place {rooted : Bool} {base : List Part} (root : rooted = true → base = [])
    (form : NormalForm Part) (parts : List Part) :
    resolve parent (form.place base) parts =
      (parts.foldl (NormalForm.append parent rooted) form).place base := by
  induction parts generalizing form with
  | nil => rfl
  | cons part parts ih =>
      rw [List.foldl_cons, ← ih, ← form.follow_place root]
      rfl

/-- A path leads to where its normal form leads. -/
theorem resolve_eq_place {rooted : Bool} {base : List Part} (root : rooted = true → base = [])
    (parts : List Part) :
    resolve parent base parts = (normalForm parent rooted parts).place base := by
  rw [normalForm, ← resolve_place root]
  simp [NormalForm.place]

theorem normalForm_append_singleton (rooted : Bool) (parts : List Part) (part : Part) :
    normalForm parent rooted (parts ++ [part]) =
      (normalForm parent rooted parts).append parent rooted part := by
  rw [normalForm, List.foldl_append]
  rfl

theorem normalForm_concat {name : Part} (proper : name ≠ parent) (rooted : Bool)
    (parts : List Part) :
    normalForm parent rooted (parts ++ [name]) =
      { normalForm parent rooted parts with
        names := (normalForm parent rooted parts).names ++ [name] } := by
  rw [normalForm_append_singleton]
  exact if_neg proper

theorem NormalForm.mem_append_names {rooted : Bool} {form : NormalForm Part} {part name : Part}
    (member : name ∈ (form.append parent rooted part).names) : name ∈ form.names ∨ name = part := by
  unfold append at member
  split at member
  case isFalse => simpa using member
  case isTrue =>
    split at member
    case isTrue => exact Or.inl member
    case isFalse => exact Or.inl (List.mem_of_mem_dropLast member)

theorem mem_of_mem_names {rooted : Bool} {parts : List Part} {name : Part}
    (member : name ∈ (normalForm parent rooted parts).names) : name ∈ parts := by
  induction parts using List.reverseRecOn with
  | nil => exact absurd member (by simp [normalForm])
  | append_singleton parts part ih =>
      rw [normalForm_append_singleton] at member
      exact List.mem_append.mpr
        ((NormalForm.mem_append_names member).imp ih List.mem_singleton.mpr)

theorem climbs_rooted (parts : List Part) : (normalForm parent true parts).climbs = 0 := by
  induction parts using List.reverseRecOn with
  | nil => rfl
  | append_singleton parts part ih =>
      rw [normalForm_append_singleton]
      unfold NormalForm.append
      split
      case isFalse => exact ih
      case isTrue =>
        split
        case isTrue => rfl
        case isFalse => exact ih

/-- The path of a file ends with a name, and no shorter path leads where it
leads. -/
theorem namesFile_concat_iff {rooted : Bool} {parts : List Part} {name : Part} :
    NamesFile parent rooted (parts ++ [name]) ↔
      name ≠ parent ∧ ∀ before, before <+: parts →
        normalForm parent rooted before ≠ normalForm parent rooted (parts ++ [name]) := by
  simp [NamesFile]

theorem names_ne_nil {rooted : Bool} {parts : List Part} (names : NamesFile parent rooted parts) :
    (normalForm parent rooted parts).names ≠ [] := by
  obtain rfl | ⟨initial, name, rfl⟩ := List.eq_nil_or_concat' parts
  · exact absurd rfl names.1
  · rw [normalForm_concat (namesFile_concat_iff.mp names).1]
    simp

theorem mem_resolve {position parts : List Part} {part : Part}
    (member : part ∈ resolve parent position parts) : part ∈ position ∨ part ∈ parts := by
  induction parts generalizing position with
  | nil => exact Or.inl member
  | cons first parts ih =>
      obtain reached | listed := @ih (follow parent position first) member
      · unfold follow at reached
        split at reached
        case isTrue => exact Or.inl (List.mem_of_mem_dropLast reached)
        case isFalse =>
          exact (List.mem_append.mp reached).imp_right fun own =>
            List.mem_cons.mpr (Or.inl (List.mem_singleton.mp own))
      · exact Or.inr (List.mem_cons_of_mem _ listed)

theorem resolve_of_names {parts : List Part} (names : ∀ part ∈ parts, part ≠ parent)
    (position : List Part) : resolve parent position parts = position ++ parts := by
  induction parts generalizing position with
  | nil => simp [resolve]
  | cons part parts ih =>
      obtain ⟨proper, names⟩ := List.forall_mem_cons.mp names
      have step : resolve parent position (part :: parts) =
          resolve parent (position ++ [part]) parts := by
        change resolve parent (follow parent position part) parts = _
        rw [follow, if_neg proper]
      rw [step, ih names, List.append_assoc, List.singleton_append]

theorem mem_visited_append_names {position way names place : List Part}
    (proper : ∀ part ∈ names, part ≠ parent) :
    place ∈ visited parent position (way ++ names) ↔
      place ∈ visited parent position way ∨
        ∃ before, before <+: names ∧ before ≠ [] ∧
          place = resolve parent position way ++ before := by
  have below : ∀ before, before <+: names →
      resolve parent position (way ++ before) = resolve parent position way ++ before :=
    fun before shorter => by
      rw [resolve_append, resolve_of_names fun part member => proper part (shorter.subset member)]
  constructor
  · intro member
    obtain ⟨before, shorter, nonempty, rfl⟩ := mem_visited.mp member
    obtain above | ⟨before, rfl⟩ :=
      List.prefix_or_prefix_of_prefix shorter (List.prefix_append way names)
    · exact Or.inl (mem_visited.mpr ⟨before, above, nonempty, rfl⟩)
    · have shorter := (List.prefix_append_right_inj way).mp shorter
      by_cases none : before = []
      · rw [none, List.append_nil] at nonempty ⊢
        exact Or.inl (mem_visited.mpr ⟨way, List.prefix_rfl, nonempty, rfl⟩)
      · exact Or.inr ⟨before, shorter, none, below before shorter⟩
  · rintro (member | ⟨before, shorter, nonempty, rfl⟩)
    · obtain ⟨before, shorter, nonempty, rfl⟩ := mem_visited.mp member
      exact mem_visited.mpr ⟨before, shorter.trans (List.prefix_append way names), nonempty, rfl⟩
    · exact mem_visited.mpr ⟨way ++ before, (List.prefix_append_right_inj way).mpr shorter,
        List.append_ne_nil_of_right_ne_nil way nonempty, below before shorter⟩

omit [DecidableEq Part] in
/-- Below enough directories of a name that they do not use, normal forms lead
to different places. -/
theorem NormalForm.eq_of_place_replicate {first second : NormalForm Part} {fresh : Part}
    (unused : fresh ∉ first.names) (unused' : fresh ∉ second.names)
    (same : first.place (List.replicate (first.climbs + 1) fresh) =
      second.place (List.replicate (first.climbs + 1) fresh)) : first = second := by
  classical
  simp only [place, List.length_replicate, List.take_replicate] at same
  have counted := congrArg (List.count fresh) same
  simp only [List.count_append, List.count_replicate_self, List.count_eq_zero.mpr unused,
    List.count_eq_zero.mpr unused'] at counted
  have climbs : first.climbs = second.climbs := by omega
  rw [climbs, List.append_cancel_left_eq] at same
  exact NormalForm.ext climbs same

end Walks

end PathWalks
