import Crucible.DatasetDownload
import Mathlib.Algebra.Order.BigOperators.Group.List

/-!
# Where a download writes

The files of a prefix download lie below the local directory, and every object
gets a file of its own, exactly when no suffix of a key is absolute or climbs,
and no two suffixes have one normal form.
-/

namespace Crucible

open PathWalks

/-- The files written are below a directory, and each belongs to one key. -/
structure Download.Contained (finished : Download) (localDir : List (List Char)) : Prop where
  below : ∀ key place, (key, place) ∈ finished.written →
    ∃ names, names ≠ [] ∧ place = resolve ['.', '.'] [] localDir ++ names
  apart : ∀ key key' place, (key, place) ∈ finished.written → (key', place) ∈ finished.written →
    key = key'

def rooted (suffix : String) : Bool :=
  suffix.toList.head? = some '/'

def suffixForm (suffix : String) : NormalForm (List Char) :=
  normalForm ['.', '.'] (rooted suffix) (PurePosixPath.parts suffix)

/-- The listed keys whose objects can be written to a file at all. -/
def NamesObject (keyPrefix key : String) : Prop :=
  key.toList.getLast? ≠ some '/' ∧
    NamesFile ['.', '.'] (rooted (relativeKey keyPrefix key))
      (PurePosixPath.parts (relativeKey keyPrefix key))

/-- No suffix is absolute or climbs, and normal forms differ. -/
structure KeysContained (keyPrefix : String) (keys : List String) : Prop where
  below : ∀ key ∈ keys, NamesObject keyPrefix key →
    rooted (relativeKey keyPrefix key) = false ∧ (suffixForm (relativeKey keyPrefix key)).climbs = 0
  apart : ∀ key ∈ keys, ∀ key' ∈ keys, NamesObject keyPrefix key → NamesObject keyPrefix key' →
    suffixForm (relativeKey keyPrefix key) = suffixForm (relativeKey keyPrefix key') → key = key'

/-! ## The target of a key -/

def anchor (localDir : List (List Char)) (suffix : String) : List (List Char) :=
  if rooted suffix then [] else localDir

theorem joinPath_eq (localDir : List (List Char)) (suffix : String) :
    joinPath localDir suffix = anchor localDir suffix ++ PurePosixPath.parts suffix := by
  unfold joinPath anchor rooted
  by_cases absolute : suffix.toList.head? = some '/' <;> simp [absolute]

/-- Each part of the way leads to where its normal form leads. -/
theorem resolve_anchor (localDir : List (List Char)) (suffix : String)
    (parts : List (List Char)) :
    resolve ['.', '.'] [] (anchor localDir suffix ++ parts) =
      (normalForm ['.', '.'] (rooted suffix) parts).place
        (resolve ['.', '.'] [] (anchor localDir suffix)) := by
  rw [resolve_append]
  refine resolve_eq_place (fun absolute => ?_) parts
  rw [anchor, if_pos absolute]
  rfl

/-- A target that a disk with the local directory accepts belongs to a suffix
that names a file, and is where its normal form leads. -/
theorem namesFile_of_accepts {disk : LocalDisk} {localDir way : List (List Char)}
    {suffix : String} {name : List Char}
    (made : ∀ place ∈ visited ['.', '.'] [] localDir, disk place = some .directory)
    (joined : joinPath localDir suffix = way ++ [name]) (accepted : disk.Accepts way name) :
    NamesFile ['.', '.'] (rooted suffix) (PurePosixPath.parts suffix) ∧
      resolve ['.', '.'] [] way ++ [name] = (suffixForm suffix).place
        (resolve ['.', '.'] [] (anchor localDir suffix)) := by
  have reached : resolve ['.', '.'] [] (way ++ [name]) = resolve ['.', '.'] [] way ++ [name] :=
    resolve_concat accepted.proper [] way
  have notVisited : resolve ['.', '.'] [] way ++ [name] ∉ visited ['.', '.'] [] way :=
    fun member => accepted.vacant (if_pos member)
  have vacant : disk (resolve ['.', '.'] [] way ++ [name]) ≠ some .directory := by
    have vacant := accepted.vacant
    rwa [LocalDisk.withDirectories, if_neg notVisited] at vacant
  have place : resolve ['.', '.'] [] way ++ [name] = (suffixForm suffix).place
      (resolve ['.', '.'] [] (anchor localDir suffix)) := by
    rw [← reached, ← joined, joinPath_eq]
    exact resolve_anchor localDir suffix _
  refine ⟨?_, place⟩
  rw [joinPath_eq] at joined
  obtain none | ⟨initial, last, parts⟩ := List.eq_nil_or_concat' (PurePosixPath.parts suffix)
  · -- the target is the local directory itself
    rw [none, List.append_nil, anchor] at joined
    split at joined
    case isTrue => simp at joined
    case isFalse =>
      refine absurd (made _ (mem_visited.mpr ⟨localDir, List.prefix_rfl, ?_, ?_⟩)) vacant
      · simp [joined]
      · rw [joined, reached]
  · rw [parts, ← List.append_assoc] at joined
    obtain ⟨rfl, ⟨⟩⟩ := List.append_inj' joined rfl
    rw [parts, namesFile_concat_iff]
    refine ⟨accepted.proper, fun before initialPart same => notVisited ?_⟩
    rw [← parts] at same
    have passed : resolve ['.', '.'] [] (anchor localDir suffix ++ before) =
        resolve ['.', '.'] [] (anchor localDir suffix ++ initial) ++ [name] := by
      rw [resolve_anchor, same, place]
      rfl
    refine mem_visited.mpr ⟨_, (List.prefix_append_right_inj _).mpr initialPart, ?_, passed⟩
    intro empty
    rw [empty] at passed
    simp [resolve] at passed

/-! ## Files written by a download -/

section Written

variable {client : GarageClient} {localDir place : List (List Char)} {key : String}

theorem accepts_of_downloadKeys {keyPrefix : String} {keys : List String} {disk : LocalDisk}
    {made : List (List (List Char))} (there : ∀ place ∈ made, disk place = some .directory)
    (written : (key, place) ∈ (client.downloadKeys keyPrefix localDir keys disk).written) :
    key ∈ keys ∧ ∃ (disk' : LocalDisk) (way : List (List Char)) (name : List Char),
      (∀ place ∈ made, disk' place = some .directory) ∧
        joinPath localDir (relativeKey keyPrefix key) = way ++ [name] ∧
          disk'.Accepts way name ∧ place = resolve ['.', '.'] [] way ++ [name] := by
  induction keys generalizing disk with
  | nil => simp [GarageClient.downloadKeys] at written
  | cons first keys ih =>
      simp only [GarageClient.downloadKeys] at written
      split at written
      case h_1 => simp at written
      case h_2 position disk₁ stored =>
        obtain ⟨way, name, content, joined, _, accepted, rfl, rfl⟩ :=
          GarageClient.downloadKey_ok_iff.mp stored
        obtain ⟨rfl, rfl⟩ | later := List.mem_cons.mp written
        · exact ⟨List.mem_cons_self, disk, way, name, there, joined, accepted, rfl⟩
        · have kept : ∀ place ∈ made, disk.withFile way name content place = some .directory :=
            fun place member => LocalDisk.withFile_directory content accepted (there place member)
          exact (ih kept later).imp_left (List.mem_cons_of_mem first)

theorem place_of_download {datasetPath : String} {disk : LocalDisk}
    (many : ¬ isSingleFile datasetPath = true)
    (written : (key, place) ∈ (client.download datasetPath localDir disk).written) :
    (∃ pages, client.pages = .ok pages ∧ key ∈ pages.flatten) ∧
      NamesObject (datasetPrefix datasetPath) key ∧
        place = (suffixForm (relativeKey (datasetPrefix datasetPath) key)).place
          (resolve ['.', '.'] []
            (anchor localDir (relativeKey (datasetPrefix datasetPath) key))) := by
  obtain ⟨pages, position, disk', listed, made, written⟩ :=
    GarageClient.written_of_download many written
  obtain ⟨_, rfl, rfl⟩ := LocalDisk.mkdir_ok_iff.mp made
  have made : ∀ place ∈ visited ['.', '.'] [] localDir,
      disk.withDirectories (visited ['.', '.'] [] localDir) place = some .directory :=
    fun place member => if_pos member
  obtain ⟨member, disk', way, name, there, joined, accepted, rfl⟩ :=
    accepts_of_downloadKeys made written
  obtain ⟨member, notDirectory⟩ := List.mem_filter.mp member
  obtain ⟨names, place⟩ := namesFile_of_accepts there joined accepted
  exact ⟨⟨pages, listed, member⟩, ⟨of_decide_eq_true notDirectory, names⟩, place⟩

theorem contained_of_single {datasetPath : String} {disk : LocalDisk}
    (single : isSingleFile datasetPath = true) :
    (client.download datasetPath localDir disk).Contained localDir := by
  have known : ∀ key place, (key, place) ∈ (client.download datasetPath localDir disk).written →
      key = datasetPath ∧ place = resolve ['.', '.'] [] localDir ++
        [PurePosixPath.name datasetPath] := by
    intro key place written
    simp only [GarageClient.download] at written
    split at written
    case h_1 => simp at written
    case h_2 position disk₁ made =>
      obtain ⟨_, rfl, rfl⟩ := LocalDisk.mkdir_ok_iff.mp made
      rw [if_pos single, GarageClient.downloadFile] at written
      split at written
      case h_1 => simp at written
      case h_2 target disk₂ stored =>
        obtain ⟨content, _, stored⟩ := GarageClient.transfer_ok_iff.mp stored
        obtain ⟨_, _, rfl, _⟩ := LocalDisk.writeFile_ok_iff.mp stored
        simpa using written
  constructor
  · intro key place written
    exact ⟨_, List.cons_ne_nil _ _, (known key place written).2⟩
  · intro key key' place written written'
    rw [(known key place written).1, (known key' place written').1]

theorem contained_of_keys {datasetPath : String} {keys : List String} {disk : LocalDisk}
    (many : ¬ isSingleFile datasetPath = true)
    (listing : ∀ pages, client.pages = .ok pages → pages.flatten.Perm keys)
    (contained : KeysContained (datasetPrefix datasetPath) keys) :
    (client.download datasetPath localDir disk).Contained localDir := by
  have known : ∀ {key place}, (key, place) ∈ (client.download datasetPath localDir disk).written →
      key ∈ keys ∧ NamesObject (datasetPrefix datasetPath) key ∧
        place = resolve ['.', '.'] [] localDir ++
          (suffixForm (relativeKey (datasetPrefix datasetPath) key)).names := by
    intro key place written
    obtain ⟨⟨pages, listed, member⟩, names, reached⟩ := place_of_download many written
    have member := (listing pages listed).mem_iff.mp member
    obtain ⟨relative, climbs⟩ := contained.below key member names
    refine ⟨member, names, ?_⟩
    rw [reached, NormalForm.place, climbs, anchor, relative]
    simp
  constructor
  · intro key place written
    obtain ⟨_, names, reached⟩ := known written
    exact ⟨_, names_ne_nil names.2, reached⟩
  · intro key key' place written written'
    obtain ⟨member, names, reached⟩ := known written
    obtain ⟨member', names', reached'⟩ := known written'
    have climbs := (contained.below key member names).2
    have climbs' := (contained.below key' member' names').2
    refine contained.apart key member key' member' names names' ?_
    exact NormalForm.ext (climbs.trans climbs'.symm) 
      (List.append_cancel_left (reached.symm.trans reached'))

end Written

/-! ## Directories with a fresh name -/

theorem exists_fresh (parts : List (List Char)) : ∃ fresh, ProperPart fresh ∧ fresh ∉ parts := by
  refine ⟨List.replicate ((parts.map List.length).sum + 3) 'x', ?_, fun member => ?_⟩
  · refine ⟨?_, ?_, ?_, ?_⟩ <;> simp [List.replicate_succ]
  · have bound := List.le_sum_of_mem (List.mem_map_of_mem (f := List.length) member)
    rw [List.length_replicate] at bound
    omega

section Fresh

variable {suffix : String} {fresh : List Char}

/-- A directory so deep that the suffix does not climb out of its parts. -/
def freshDir (suffix : String) (fresh : List Char) : List (List Char) :=
  List.replicate ((suffixForm suffix).climbs + 1) fresh

theorem resolve_freshDir (proper : ProperPart fresh) :
    resolve ['.', '.'] [] (freshDir suffix fresh) = freshDir suffix fresh :=
  resolve_of_names (fun _ member => List.eq_of_mem_replicate member ▸ proper.2.2.1) []

/-- Where the suffix leads from the fresh directory. -/
def freshPlace (suffix : String) (fresh : List Char) : List (List Char) :=
  (suffixForm suffix).place (if rooted suffix then [] else freshDir suffix fresh)

theorem resolve_anchor_freshDir (proper : ProperPart fresh) :
    resolve ['.', '.'] [] (anchor (freshDir suffix fresh) suffix) =
      if rooted suffix then [] else freshDir suffix fresh := by
  unfold anchor
  split
  case isTrue => rfl
  case isFalse => exact resolve_freshDir proper

theorem eq_fresh_of_mem_anchor {part : List Char}
    (member : part ∈ anchor (freshDir suffix fresh) suffix) : part = fresh := by
  unfold anchor at member
  split at member
  case isTrue => exact absurd member List.not_mem_nil
  case isFalse => exact List.eq_of_mem_replicate member

theorem eq_suffixForm_of_place {before : List (List Char)}
    (unused : fresh ∉ PurePosixPath.parts suffix) (unused' : fresh ∉ before)
    (same : (normalForm ['.', '.'] (rooted suffix) before).place
      (if rooted suffix then [] else freshDir suffix fresh) = freshPlace suffix fresh) :
    normalForm ['.', '.'] (rooted suffix) before = suffixForm suffix := by
  unfold freshPlace suffixForm at *
  cases absolute : rooted suffix with
  | true =>
      rw [absolute] at same
      refine NormalForm.ext ((climbs_rooted _).trans (climbs_rooted _).symm) ?_
      simpa [NormalForm.place] using same
  | false =>
      rw [absolute] at same
      refine (NormalForm.eq_of_place_replicate (fun member => unused (mem_of_mem_names member))
        (fun member => unused' (mem_of_mem_names member)) ?_).symm
      unfold freshDir suffixForm at same
      rw [absolute] at same
      exact same.symm

theorem accepts_freshDir {disk : LocalDisk} (proper : ProperPart fresh)
    (unused : fresh ∉ PurePosixPath.parts suffix)
    (names : NamesFile ['.', '.'] (rooted suffix) (PurePosixPath.parts suffix))
    (passable : ∀ place ≠ freshPlace suffix fresh, disk.Passable place)
    (vacant : disk (freshPlace suffix fresh) ≠ some .directory) :
    ∃ way name, joinPath (freshDir suffix fresh) suffix = way ++ [name] ∧
      disk.Accepts way name ∧ freshPlace suffix fresh = resolve ['.', '.'] [] way ++ [name] := by
  obtain ⟨initial, name, parts⟩ :=
    (List.eq_nil_or_concat' (PurePosixPath.parts suffix)).resolve_left
      fun none => names.1 (by rw [none]; rfl)
  have named := names
  rw [parts, namesFile_concat_iff, ← parts] at named
  obtain ⟨notParent, earlier⟩ := named
  have place : freshPlace suffix fresh =
      resolve ['.', '.'] [] (anchor (freshDir suffix fresh) suffix ++ initial) ++ [name] := by
    rw [← resolve_concat notParent, List.append_assoc, ← parts, resolve_anchor,
      resolve_anchor_freshDir proper]
    rfl
  have notVisited : freshPlace suffix fresh ∉
      visited ['.', '.'] [] (anchor (freshDir suffix fresh) suffix ++ initial) := by
    intro member
    obtain ⟨before, shorter, _, reached⟩ := mem_visited.mp member
    obtain above | below := List.prefix_or_prefix_of_prefix shorter (List.prefix_append _ _)
    · -- on the way to the fresh directory there are only fresh names
      have used : name ∈ before := by
        have listed : name ∈ resolve ['.', '.'] [] before := by
          rw [reached, place]
          exact List.mem_append_right _ List.mem_cons_self
        exact (mem_resolve listed).resolve_left List.not_mem_nil
      refine unused ?_
      rw [← eq_fresh_of_mem_anchor (above.subset used), parts]
      exact List.mem_append_right _ List.mem_cons_self
    · obtain ⟨before, rfl⟩ := below
      have shorter := (List.prefix_append_right_inj _).mp shorter
      rw [resolve_anchor, resolve_anchor_freshDir proper] at reached
      refine earlier before shorter (eq_suffixForm_of_place unused (fun used => unused ?_) reached)
      rw [parts]
      exact List.mem_append_left _ (shorter.subset used)
  refine ⟨_, name, ?_, ⟨notParent, ?_, ?_⟩, place⟩
  · rw [joinPath_eq, parts, List.append_assoc]
  · exact fun passed member => passable passed fun same => notVisited (same ▸ member)
  · rw [← place, LocalDisk.withDirectories, if_neg notVisited]
    exact vacant

theorem exists_name_mem_freshPlace (fresh : List Char)
    (names : NamesFile ['.', '.'] (rooted suffix) (PurePosixPath.parts suffix)) :
    ∃ name ∈ freshPlace suffix fresh, name ∈ PurePosixPath.parts suffix := by
  obtain ⟨name, listed⟩ := List.exists_mem_of_ne_nil _ (names_ne_nil names)
  exact ⟨name, List.mem_append_right _ listed, mem_of_mem_names listed⟩

theorem count_freshPlace (unused : fresh ∉ PurePosixPath.parts suffix) :
    (freshPlace suffix fresh).count fresh = if rooted suffix then 0 else 1 := by
  have names : (suffixForm suffix).names.count fresh = 0 :=
    List.count_eq_zero.mpr fun member => unused (mem_of_mem_names member)
  unfold freshPlace NormalForm.place
  rw [List.count_append, names, Nat.add_zero]
  split
  case isTrue => simp
  case isFalse => simp [freshDir]

theorem written_freshDir {client : GarageClient} {keyPrefix key : String} (keys : List String)
    {disk : LocalDisk} {content : Bytes} (object : client.object key = .ok content)
    (same : suffix = relativeKey keyPrefix key) (proper : ProperPart fresh)
    (unused : fresh ∉ PurePosixPath.parts suffix)
    (names : NamesFile ['.', '.'] (rooted suffix) (PurePosixPath.parts suffix))
    (passable : ∀ place ≠ freshPlace suffix fresh, disk.Passable place)
    (vacant : disk (freshPlace suffix fresh) ≠ some .directory) :
    ∃ disk' : LocalDisk,
      (client.downloadKeys keyPrefix (freshDir suffix fresh) (key :: keys) disk).written =
          (key, freshPlace suffix fresh) ::
            (client.downloadKeys keyPrefix (freshDir suffix fresh) keys disk').written ∧
        (∀ place ≠ freshPlace suffix fresh, disk'.Passable place) ∧
          disk' (freshPlace suffix fresh) ≠ some .directory := by
  obtain ⟨way, name, joined, accepted, place⟩ :=
    accepts_freshDir proper unused names passable vacant
  have stored : client.downloadKey keyPrefix (freshDir suffix fresh) key disk =
      (.ok (freshPlace suffix fresh), disk.withFile way name content) :=
    GarageClient.downloadKey_ok_iff.mpr
      ⟨way, name, content, same ▸ joined, object, accepted, place, rfl⟩
  refine ⟨disk.withFile way name content, ?_, fun other distinct => ?_, ?_⟩
  · rw [GarageClient.downloadKeys_cons_ok keys stored]
  · intro content'
    rw [LocalDisk.withFile, ← place, Function.update_of_ne distinct, LocalDisk.withDirectories]
    split
    case isTrue => simp
    case isFalse => exact passable other distinct content'
  · rw [LocalDisk.withFile, ← place, Function.update_self]
    simp

theorem freshDir_passable (place : List (List Char)) :
    (bareDisk.withDirectories (visited ['.', '.'] [] (freshDir suffix fresh))).Passable place := by
  intro content
  unfold LocalDisk.withDirectories bareDisk
  split_ifs <;> simp

theorem freshDir_vacant (unused : fresh ∉ PurePosixPath.parts suffix)
    (names : NamesFile ['.', '.'] (rooted suffix) (PurePosixPath.parts suffix)) :
    bareDisk.withDirectories (visited ['.', '.'] [] (freshDir suffix fresh))
      (freshPlace suffix fresh) ≠ some .directory := by
  obtain ⟨name, reached, listed⟩ := exists_name_mem_freshPlace fresh names
  have notVisited : freshPlace suffix fresh ∉ visited ['.', '.'] [] (freshDir suffix fresh) := by
    intro member
    obtain ⟨before, shorter, _, place⟩ := mem_visited.mp member
    have used := (mem_resolve (place ▸ reached)).resolve_left List.not_mem_nil
    exact unused (List.eq_of_mem_replicate (shorter.subset used) ▸ listed)
  have notRoot : freshPlace suffix fresh ≠ [] := List.ne_nil_of_mem reached
  rw [LocalDisk.withDirectories, if_neg notVisited, bareDisk, if_neg notRoot]
  simp

end Fresh

/-! ## Containment -/

/-- A client that lists some keys, in this order, and hands out empty objects. -/
def listingClient (keys : List String) : GarageClient where
  bucketName := ""
  pages := .ok [keys]
  object := fun _ => .ok []

section Containment

variable {datasetPath key key' : String} {keys : List String} {fresh : List Char}

theorem written_listingClient (keys : List String) (many : ¬ isSingleFile datasetPath = true)
    (proper : ProperPart fresh)
    (unused : fresh ∉ PurePosixPath.parts (relativeKey (datasetPrefix datasetPath) key))
    (names : NamesObject (datasetPrefix datasetPath) key) :
    ∃ disk' : LocalDisk,
      ((listingClient (key :: keys)).download datasetPath
          (freshDir (relativeKey (datasetPrefix datasetPath) key) fresh) bareDisk).written =
        (key, freshPlace (relativeKey (datasetPrefix datasetPath) key) fresh) ::
          ((listingClient (key :: keys)).downloadKeys (datasetPrefix datasetPath)
            (freshDir (relativeKey (datasetPrefix datasetPath) key) fresh)
            (GarageClient.objectKeys [keys]) disk').written ∧
      (∀ place ≠ freshPlace (relativeKey (datasetPrefix datasetPath) key) fresh,
        disk'.Passable place) ∧
      disk' (freshPlace (relativeKey (datasetPrefix datasetPath) key) fresh) ≠
        some .directory := by
  have made : bareDisk.mkdir [] (freshDir (relativeKey (datasetPrefix datasetPath) key) fresh) =
      (some _, _) := LocalDisk.mkdir_ok_iff.mpr ⟨fun place _ content => ?_, rfl, rfl⟩
  · have found : GarageClient.objectKeys [key :: keys] = key :: GarageClient.objectKeys [keys] := by
      simp [GarageClient.objectKeys, names.1]
    rw [GarageClient.download_eq many made rfl (found ▸ List.cons_ne_nil _ _), found]
    exact written_freshDir _ rfl rfl proper unused names.2 (fun place _ => freshDir_passable place)
      (freshDir_vacant unused names.2)
  · unfold bareDisk
    split_ifs <;> simp

/-- Every download of a dataset with these keys is contained, whatever the local
directory, the pages, the failing calls and the disk. -/
def DownloadContained (datasetPath : String) (keys : List String) : Prop :=
  ∀ (client : GarageClient) (localDir : List (List Char)) (disk : LocalDisk),
    (∀ pages, client.pages = .ok pages → pages.flatten.Perm keys) →
    (∀ part ∈ localDir, part = ['.', '.'] ∨ ProperPart part) →
      (client.download datasetPath localDir disk).Contained localDir

theorem listingClient_pages {keys keys' : List String} (perm : keys.Perm keys') :
    ∀ pages, (listingClient keys).pages = .ok pages → pages.flatten.Perm keys' := by
  rintro pages ⟨⟩
  simpa using perm

theorem freshDir_parts {suffix : String} (proper : ProperPart fresh) :
    ∀ part ∈ freshDir suffix fresh, part = ['.', '.'] ∨ ProperPart part :=
  fun _ member => Or.inr (List.eq_of_mem_replicate member ▸ proper)

/-- A suffix that is absolute or climbs leads out of the fresh directory. -/
theorem relative_of_contained (many : ¬ isSingleFile datasetPath = true)
    (contained : DownloadContained datasetPath keys) (member : key ∈ keys)
    (names : NamesObject (datasetPrefix datasetPath) key) :
    rooted (relativeKey (datasetPrefix datasetPath) key) = false ∧
      (suffixForm (relativeKey (datasetPrefix datasetPath) key)).climbs = 0 := by
  obtain ⟨fresh, proper, unused⟩ :=
    exists_fresh (PurePosixPath.parts (relativeKey (datasetPrefix datasetPath) key))
  obtain ⟨disk', written, _⟩ := written_listingClient (keys.erase key) many proper unused
    names
  obtain ⟨below, _, place⟩ := (contained (listingClient (key :: keys.erase key))
    (freshDir (relativeKey (datasetPrefix datasetPath) key) fresh) bareDisk
    (listingClient_pages (List.perm_cons_erase member).symm) (freshDir_parts proper)).below key
      (freshPlace (relativeKey (datasetPrefix datasetPath) key) fresh)
      (written ▸ List.mem_cons_self)
  have counted := count_freshPlace unused
  rw [place, resolve_freshDir proper, List.count_append, freshDir, List.count_replicate_self]
    at counted
  split at counted
  case isTrue => omega
  case isFalse relative => exact ⟨by simpa using relative, by omega⟩

/-- Suffixes with one normal form lead to one file. -/
theorem eq_of_contained (many : ¬ isSingleFile datasetPath = true)
    (contained : DownloadContained datasetPath keys) (member : key ∈ keys) (member' : key' ∈ keys)
    (names : NamesObject (datasetPrefix datasetPath) key)
    (names' : NamesObject (datasetPrefix datasetPath) key')
    (same : suffixForm (relativeKey (datasetPrefix datasetPath) key) =
      suffixForm (relativeKey (datasetPrefix datasetPath) key')) : key = key' := by
  by_contra distinct
  obtain ⟨fresh, proper, unused⟩ :=
    exists_fresh (PurePosixPath.parts (relativeKey (datasetPrefix datasetPath) key) ++
      PurePosixPath.parts (relativeKey (datasetPrefix datasetPath) key'))
  obtain ⟨unused, unused'⟩ := not_or.mp (List.mem_append.not.mp unused)
  have relative := (relative_of_contained many contained member names).1
  have relative' := (relative_of_contained many contained member' names').1
  have sameDir : freshDir (relativeKey (datasetPrefix datasetPath) key') fresh =
      freshDir (relativeKey (datasetPrefix datasetPath) key) fresh := by
    rw [freshDir, freshDir, same]
  have samePlace : freshPlace (relativeKey (datasetPrefix datasetPath) key') fresh =
      freshPlace (relativeKey (datasetPrefix datasetPath) key) fresh := by
    rw [freshPlace, freshPlace, same, relative, relative', sameDir]
  have later : key' ∈ keys.erase key := (List.mem_erase_of_ne (Ne.symm distinct)).mpr member'
  have perm : (key :: key' :: (keys.erase key).erase key').Perm keys :=
    ((List.perm_cons_erase later).symm.cons key).trans (List.perm_cons_erase member).symm
  obtain ⟨disk₁, written, passable, vacant⟩ := written_listingClient
    (key' :: (keys.erase key).erase key') many proper unused names
  have found : GarageClient.objectKeys [key' :: (keys.erase key).erase key'] =
      key' :: GarageClient.objectKeys [(keys.erase key).erase key'] := by
    simp [GarageClient.objectKeys, names'.1]
  rw [← samePlace] at passable vacant
  have object : (listingClient (key :: key' :: (keys.erase key).erase key')).object key' = .ok [] :=
    rfl
  obtain ⟨disk₂, written', _⟩ := written_freshDir
    (GarageClient.objectKeys [(keys.erase key).erase key']) object rfl proper unused' names'.2
    passable vacant
  rw [found, ← sameDir, written', samePlace] at written
  have apart := (contained (listingClient (key :: key' :: (keys.erase key).erase key'))
    (freshDir (relativeKey (datasetPrefix datasetPath) key') fresh) bareDisk
    (listingClient_pages perm) (freshDir_parts proper)).apart
  rw [written] at apart
  exact distinct (apart key key' _ List.mem_cons_self (List.mem_cons_of_mem _ List.mem_cons_self))

/-- Downloads are contained exactly when the keys of the dataset are. -/
theorem download_contained_iff (datasetPath : String) (keys : List String) :
    DownloadContained datasetPath keys ↔
      isSingleFile datasetPath = true ∨ KeysContained (datasetPrefix datasetPath) keys := by
  constructor
  · intro contained
    refine or_iff_not_imp_left.mpr fun many => ⟨fun key member names => ?_, ?_⟩
    · exact relative_of_contained many contained member names
    · exact fun key member key' member' names names' same =>
        eq_of_contained many contained member member' names names' same
  · rintro (single | contained) client localDir disk listing _
    · exact contained_of_single single
    · by_cases single : isSingleFile datasetPath = true
      · exact contained_of_single single
      · exact contained_of_keys single listing contained

end Containment

/-! ## A key that climbs -/

/-- The download of a key with `..` writes next to the local directory. -/
theorem download_escapes :
    ¬ ∀ (datasetPath : String) (keys : List String),
      (∀ key ∈ keys, (datasetPrefix datasetPath).toList <+: key.toList) →
        DownloadContained datasetPath keys := by
  intro contained
  have below := (contained "datasets/demo/v1/" ["datasets/demo/v1/../x"] (by decide)
    (listingClient ["datasets/demo/v1/../x"]) [['t', 'm', 'p']] bareDisk
    (listingClient_pages (List.Perm.refl _)) (by decide)).below "datasets/demo/v1/../x" [['x']]
    (by decide +kernel)
  obtain ⟨names, _, outside⟩ := below
  exact absurd (List.cons_prefix_cons.mp (⟨names, outside.symm⟩ : [['t', 'm', 'p']] <+: [['x']])).1
    (by decide)

end Crucible
