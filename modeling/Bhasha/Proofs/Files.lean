import Bhasha.Files
import Bhasha.Proofs.Text.Joining
import Mathlib.Data.List.Nodup

/-!
# Files before and after

A file that is written to in a store is found with its new content, and every other file as before.
Two stores are compared by the entries of the later one that the earlier one does not have.  Where
each path is listed once, these are the files with another content than before, and the parts of
such a path, put together to a text, are a name under which the file is read.
-/

namespace Bhasha

namespace Files

variable {files before after : Files} {path : EntryPath} {content : Text}

/-- Each path is listed once. -/
def Distinct (files : Files) : Prop := (files.contents.map (·.1)).Nodup

theorem lookup_iff {contents : List (EntryPath × Text)} (distinct : (contents.map (·.1)).Nodup) :
    contents.lookup path = some content ↔ (path, content) ∈ contents := by
  induction contents with
  | nil => simp
  | cons entry rest ih =>
    obtain ⟨here, found⟩ := entry
    rw [List.map_cons, List.nodup_cons] at distinct
    by_cases same : path = here
    · subst same
      have once : (path, content) ∉ rest := fun again =>
        distinct.1 (List.mem_map.mpr ⟨_, again, rfl⟩)
      simp [once, eq_comm]
    · have other : (path == here) = false := by simpa using same
      simp [List.lookup_cons, other, same, ih distinct.2]

theorem Distinct.content?_iff (distinct : files.Distinct) :
    files.content? path = some content ↔ (path, content) ∈ files.contents :=
  lookup_iff distinct

theorem content?_eq_none_iff : files.content? path = none ↔ path ∉ files.contents.map (·.1) := by
  simp only [content?, List.lookup_eq_none_iff, bne_iff_ne, List.mem_map, not_exists, not_and]
  exact ⟨fun none entry member same => none entry member same.symm,
    fun none entry member same => none entry member same.symm⟩

/-- The files that have changed are those with another content than before. -/
theorem mem_changesSince (distinct : after.Distinct) :
    (path, content) ∈ before.changesSince after ↔
      after.content? path = some content ∧ before.content? path ≠ some content := by
  rw [changesSince, List.mem_filter, distinct.content?_iff, bne_iff_ne]

/-! ## Writing to a file -/

theorem content?_create (new : files.content? path = none) (other : EntryPath) :
    (files.create path).content? other =
      if other = path then some [] else files.content? other := by
  have split : (files.create path).content? other =
      (files.content? other).or (if other == path then some [] else none) := by
    simp only [create, content?, List.lookup_append, List.lookup_cons, List.lookup_nil]
    cases other == path <;> rfl
  rw [split]
  by_cases same : other = path
  · subst same
    simp [new]
  · simp [same]

theorem content?_extend (bytes : Text) (other : EntryPath) :
    (files.extend path bytes).content? other =
      if other = path then (files.content? path).map (· ++ bytes) else files.content? other := by
  simp only [extend, content?]
  induction files.contents with
  | nil => simp
  | cons entry rest ih =>
    obtain ⟨here, found⟩ := entry
    rw [List.map_cons]
    by_cases hit : here = path
    · subst hit
      by_cases same : other = here
      · subst same
        simp
      · have passed : (other == here) = false := by simpa using same
        simpa [List.lookup_cons, same, passed] using ih
    · by_cases same : other = here
      · subst same
        simp [hit]
      · have passed : (other == here) = false := by simpa using same
        have kept : (path == here) = false := by simpa using Ne.symm hit
        simpa [List.lookup_cons, hit, passed, kept] using ih

theorem Distinct.create (distinct : files.Distinct) (new : files.content? path = none) :
    (files.create path).Distinct := by
  rw [Distinct, Files.create, List.map_append, List.map_singleton]
  refine List.nodup_append.mpr ⟨distinct, List.nodup_singleton _, ?_⟩
  intro listed member added only same
  rw [List.mem_singleton] at only
  subst only same
  exact content?_eq_none_iff.mp new member

theorem paths_extend (bytes : Text) :
    (files.extend path bytes).contents.map (·.1) = files.contents.map (·.1) := by
  rw [extend, List.map_map]
  refine List.map_congr_left fun entry _ => ?_
  by_cases hit : entry.1 = path <;> simp [hit]

theorem walk_missing {purpose : Purpose} {place : Place} {parts : List Text}
    (ends : files.walk purpose place parts = .ok (.missing path)) :
    files.content? path = none := by
  fun_induction walk files purpose place parts with
  | case2 _ _ _ _ goesOn => exact goesOn ends
  | case3 _ _ _ _ goesOn => exact goesOn ends
  | case4 _ _ _ _ goesOn => exact goesOn ends
  | case10 _ _ _ _ _ _ _ _ _ _ goesOn => exact goesOn ends
  | case11 _ _ _ _ _ _ _ _ absent _ _ =>
    obtain rfl : _ = path := by simpa using ends
    simpa using absent
  | _ => cases ends

/-- A path that leads to no file is that of none. -/
theorem content?_of_missing {purpose : Purpose} {name : Text}
    (found : files.resolve purpose name = .ok (.missing path)) : files.content? path = none := by
  unfold resolve at found
  split at found
  · cases found
  · split at found
    · cases found
    · split at found
      · cases found
      · exact walk_missing found

/-- At most one file is written to, behind what it holds. -/
structure GrowsAt (log? : Option EntryPath) (before after : Files) : Prop where
  distinct : before.Distinct → after.Distinct
  others : ∀ path, some path ≠ log? → after.content? path = before.content? path
  grown : ∀ path, (before.content? path).getD [] <+: (after.content? path).getD []

namespace GrowsAt

variable {log? : Option EntryPath} {log : EntryPath}

theorem refl (log? : Option EntryPath) (files : Files) : GrowsAt log? files files :=
  ⟨id, fun _ _ => rfl, fun _ => List.prefix_rfl⟩

theorem trans {later : Files} (first : GrowsAt log? before after)
    (second : GrowsAt log? after later) : GrowsAt log? before later where
  distinct := second.distinct ∘ first.distinct
  others path other := (second.others path other).trans (first.others path other)
  grown path := (first.grown path).trans (second.grown path)

/-- Where nothing is written, any file may be written to next. -/
theorem ofNone (grows : GrowsAt none before after) : GrowsAt log? before after where
  distinct := grows.distinct
  others path _ := grows.others path nofun
  grown := grows.grown

theorem create (new : files.content? log = none) : GrowsAt (some log) files (files.create log) where
  distinct distinct := distinct.create new
  others path other := by
    rw [content?_create new, if_neg fun same => other (congrArg some same)]
  grown path := by
    rw [content?_create new]
    by_cases same : path = log
    · subst same
      simp [new]
    · simp [same]

theorem extend (files : Files) (log : EntryPath) (bytes : Text) :
    GrowsAt (some log) files (files.extend log bytes) where
  distinct distinct := (congrArg List.Nodup (paths_extend bytes)).mpr distinct
  others path other := by
    rw [content?_extend, if_neg fun same => other (congrArg some same)]
  grown path := by
    rw [content?_extend]
    by_cases same : path = log
    · subst same
      cases files.content? path <;> simp
    · simp [same]

/-- Opening a file for appending creates it at most. -/
theorem openToAppend {name : Text} (opened : before.openToAppend name = .ok (log, after)) :
    GrowsAt (some log) before after := by
  rw [Files.openToAppend] at opened
  cases found : before.resolve .appending name with
  | error e => simp [found] at opened
  | ok target =>
    cases target with
    | file there =>
      simp only [found, Except.ok.injEq, Prod.mk.injEq] at opened
      obtain ⟨rfl, rfl⟩ := opened
      exact refl _ _
    | directory => simp [found] at opened
    | missing there =>
      simp only [found, Except.ok.injEq, Prod.mk.injEq] at opened
      obtain ⟨rfl, rfl⟩ := opened
      exact create (content?_of_missing found)

/-- A file that has changed is the one that was written to, and begins as before. -/
theorem of_change (grows : GrowsAt log? before after) (distinct : before.Distinct)
    (change : (path, content) ∈ before.changesSince after) :
    some path = log? ∧ (before.content? path).getD [] <+: content := by
  obtain ⟨now, earlier⟩ := (mem_changesSince (grows.distinct distinct)).mp change
  have begins := grows.grown path
  rw [now] at begins
  refine ⟨?_, begins⟩
  by_contra other
  exact earlier ((grows.others path other).symm.trans now)

end GrowsAt

/-! ## The name of a file -/

/-- The name of an entry, which leads there as it stands. -/
structure IsName (part : Text) : Prop where
  nonempty : part ≠ []
  notHere : part ≠ text "."
  notUp : part ≠ text ".."
  whole : 0x2f ∉ part
  plain : 0 ∉ part
  short : part.length ≤ longestName

theorem isDirectory_of_content? {directory below : EntryPath}
    (there : files.content? (directory ++ below) = some content) (nonempty : below ≠ []) :
    files.isDirectory directory = true := by
  obtain ⟨front, behind, listed, -⟩ := List.lookup_eq_some_iff.mp there
  have deeper : 0 < below.length := List.length_pos_iff.mpr nonempty
  have member : (directory ++ below, content) ∈ files.contents := by simp [listed]
  simp only [isDirectory, Bool.or_eq_true, List.any_eq_true]
  refine .inr ⟨_, member, ?_⟩
  simp [deeper]

/-- From a directory, names lead to a file if no other file stands in the way. -/
theorem walk_names {directory parts : EntryPath} (names : ∀ part ∈ parts, IsName part)
    (nonempty : parts ≠ []) (there : files.content? (directory ++ parts) = some content)
    (clear : ∀ on, on <+: parts → on ≠ [] → on ≠ parts → files.content? (directory ++ on) = none) :
    files.walk .reading (.inside directory) parts = .ok (.file (directory ++ parts)) := by
  induction parts generalizing directory with
  | nil => exact absurd rfl nonempty
  | cons part rest ih =>
    have name := names part (.head _)
    have stays : ¬ ((part.isEmpty || decide (part = text ".")) = true) := by
      simp [name.nonempty, name.notHere]
    have long : ¬ longestName < part.length := Nat.not_lt.mpr name.short
    unfold walk
    rw [if_neg stays, if_neg name.notUp, if_neg (by simp), if_neg long]
    cases rest with
    | nil => simp [there]
    | cons next others =>
      have onTheWay : files.content? (directory ++ [part]) = none :=
        clear [part] ⟨next :: others, rfl⟩ nofun nofun
      have whole : directory ++ part :: next :: others = directory ++ [part] ++ next :: others := by
        simp
      rw [whole] at there
      have below : files.isDirectory (directory ++ [part]) = true :=
        isDirectory_of_content? there nofun
      simp only [onTheWay, below]
      rw [whole]
      refine ih (fun other member => names other (.tail _ member)) nofun there ?_
      intro on before some other
      rw [List.append_assoc]
      exact clear (part :: on) (List.cons_prefix_cons.mpr ⟨rfl, before⟩) nofun fun same =>
        other (List.cons_inj_right part |>.mp same)

/-- A file can be read under its name: the parts of its path, with a separator between them. -/
theorem read_pathText (names : ∀ part ∈ path, IsName part) (nonempty : path ≠ [])
    (short : (pathText path).length ≤ longestPath) (there : files.content? path = some content)
    (clear : ∀ on, on <+: path → on ≠ [] → on ≠ path → files.content? on = none) :
    files.read (pathText path) = .ok content := by
  have parted : Text.splitOn 0x2f (pathText path) = path :=
    Text.splitOn_joinWith (fun part member => (names part member).whole) nonempty
  have plain : 0 ∉ pathText path := by
    intro zero
    obtain differs | ⟨part, member, inside⟩ := Text.mem_joinWith zero
    · exact absurd differs (by decide)
    · exact (names part member).plain inside
  -- An empty text or a separator in front would be an empty first part.
  have opens : ∀ rest, path ≠ [] :: rest := by
    rintro rest rfl
    exact (names [] (.head _)).nonempty rfl
  have written : (pathText path).isEmpty = false := by
    cases whole : pathText path with
    | nil => exact absurd (whole ▸ parted).symm (opens [])
    | cons b rest => rfl
  have relative : (pathText path).head? ≠ some 0x2f := by
    intro rooted
    obtain ⟨rest, whole⟩ := List.head?_eq_some_iff.mp rooted
    rw [whole] at parted
    exact opens _ (parted.symm.trans (Text.splitOn_append List.not_mem_nil rest))
  have resolved : files.resolve .reading (pathText path) = .ok (.file path) := by
    rw [resolve, if_neg (by simpa using plain), if_neg (Nat.not_lt.mpr short), written]
    dsimp only
    rw [if_neg relative, parted]
    exact walk_names names nonempty there clear
  rw [read, resolved]
  dsimp only
  rw [there]
  rfl

end Files

end Bhasha
