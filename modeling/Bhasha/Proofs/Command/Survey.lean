import Bhasha.Proofs.Command.Writes
import Bhasha.Proofs.Text.Joining

/-!
# Checking many files

A check examines its files in some order, in which each of them comes once, and sums up what it has
found.  A finding goes to the place of its file, so after some of the files have been examined
exactly their places are filled, whatever the order was, and in the end all are.  The sum therefore
depends on the files alone: the diagnostics of those that can be read are reported in the order of
the arguments; files that cannot be read are the failure, all of them; otherwise the number of files
with diagnostics is, if there are any.  A failure for files that cannot be read tells of each of
them, and it is one for a missing file exactly if a file is missing.
-/

namespace Bhasha

open Text (lineFeed)

/-- A failure tells of each file that is behind it. -/
theorem Failure.tells_of_file {failure : Failure} {why : FileFailure}
    (behind : why ∈ failure.fileFailures) : why.message <:+: failure.message := by
  unfold fileFailures at behind
  split at behind
  · obtain rfl := List.mem_singleton.mp behind
    exact (List.suffix_append _ _).isInfix
  · obtain rfl := List.mem_singleton.mp behind
    exact ((List.suffix_append _ _).trans (List.suffix_append _ _)).isInfix
  · obtain ⟨file, listed, rfl⟩ := List.mem_map.mp behind
    have line : file.2.message <:+: unreadableMessage file := (List.suffix_append _ _).isInfix
    exact line.trans (Text.infix_joinWith (List.mem_map.mpr ⟨file, listed, rfl⟩))
  · exact absurd behind List.not_mem_nil

/-- A host whose files are what `reads` says, and whose outputs take everything. -/
structure Host.Serves (host : Host (StateM World)) (base : World)
    (reads : Text → Except FileFailure Text) : Prop where
  read : ∀ path, Writes base (host.readFile path) (reads path) [] []
  out : ∀ bytes, Writes base (host.out bytes) ⟨bytes.length, none⟩ bytes []
  err : ∀ bytes, Writes base (host.err bytes) ⟨bytes.length, none⟩ [] bytes

theorem World.serves (base : World) : World.host.Serves base base.files.read :=
  ⟨writes_readFile, writes_out, writes_err⟩

/-- The host of a world in which the files are what `reads` says. -/
def World.hostReading (reads : Text → Except FileFailure Text) : Host (StateM World) :=
  { World.host with readFile := fun path => pure (reads path) }

theorem World.serves_reading (base : World) (reads : Text → Except FileFailure Text) :
    (World.hostReading reads).Serves base reads :=
  ⟨fun _ => .done _, writes_out, writes_err⟩

/-- Diagnostics on lines of their own, each behind the name of its file. -/
def Session.linesOf (name : Text) (ds : List Diagnostic) : Text :=
  ds.flatMap fun d => name ++ text ": " ++ d.render ++ [lineFeed]

namespace Survey

section

variable (reads : Text → Except FileFailure Text)

/-- The diagnostics of a file; none of a file that cannot be read. -/
def diagnostics (name : Text) : List Diagnostic :=
  match reads name with
  | .ok content => (Reading.ofSource content).diagnostics
  | .error _ => []

/-- What is reported of a file. -/
def block (name : Text) : Text := Session.linesOf name (diagnostics reads name)

/-- The files that cannot be read, and why. -/
def unreadable (names : List Text) : List (Text × FileFailure) :=
  names.filterMap fun name =>
    match reads name with
    | .ok _ => none
    | .error failure => some (name, failure)

/-- The number of files with diagnostics. -/
def faulty (names : List Text) : Nat := names.countP fun name => diagnostics reads name ≠ []

/-- What examining a file finds. -/
def finding (name : Text) : Session.Finding :=
  ⟨name, (reads name).map fun content => ⟨(Reading.ofSource content).diagnostics⟩⟩

/-- The places of the files after those at some of the places have been examined. -/
def filled (names : List Text) (places : List Nat) : List (Option Session.Finding) :=
  names.mapIdx fun place name => if place ∈ places then some (finding reads name) else none

end

variable {reads : Text → Except FileFailure Text} {names : List Text} {places : List Nat}

theorem filled_nil : filled reads names [] = names.map fun _ => none := by
  apply List.ext_getElem
  · simp [filled]
  · intro place _ _
    simp [filled]

/-- Only which places have been examined counts. -/
theorem filled_congr {others : List Nat}
    (same : ∀ place < names.length, place ∈ places ↔ place ∈ others) :
    filled reads names places = filled reads names others := by
  apply List.ext_getElem
  · simp [filled]
  · intro place inside inside'
    have here := same place (by simpa [filled] using inside)
    simp [filled, here]

/-- A finding fills the place of its file. -/
theorem filled_set {place : Nat} {name : Text} (here : names[place]? = some name) :
    (filled reads names places).set place (some (finding reads name)) =
      filled reads names (place :: places) := by
  obtain ⟨inside, rfl⟩ := List.getElem?_eq_some_iff.mp here
  apply List.ext_getElem
  · simp [filled]
  · intro other _ _
    by_cases same : place = other
    · subst same
      simp [filled]
    · simp [filled, same, Ne.symm same]

theorem filled_all (all : ∀ place < names.length, place ∈ places) :
    filled reads names places = names.map fun name => some (finding reads name) := by
  apply List.ext_getElem
  · simp [filled]
  · intro place inside _
    have here := all place (by simpa [filled] using inside)
    simp [filled, here]

variable {host : Host (StateM World)} {base : World}

theorem writes_examine (serves : host.Serves base reads) (name : Text) :
    Writes base ((Session.plainOn host).examine name) (finding reads name) [] [] := by
  rw [Session.examine]
  refine (serves.read name).after ?_
  rw [finding]
  cases reads name with
  | error failure => exact .done _
  | ok content => exact (Session.writes_journal host _).after (.done _)

/-- Examining files in any order fills the places that the order names. -/
theorem writes_survey (serves : host.Serves base reads) (names : List Text) :
    ∀ order places, Writes base
      ((Session.plainOn host).survey names order (filled reads names places))
      (filled reads names (order ++ places)) [] []
  | [], places => .done _
  | place :: order, places => by
    have others := writes_survey serves names order
    rw [Session.survey]
    cases here : names[place]? with
    -- A place behind the last file is passed over; it is no place to fill either.
    | none =>
      have outside : names.length ≤ place := List.getElem?_eq_none_iff.mp here
      have same : filled reads names (place :: order ++ places) =
          filled reads names (order ++ places) := by
        refine filled_congr fun other inside => ?_
        have apart : other ≠ place := by omega
        simp [apart]
      rw [same]
      exact others places
    | some name =>
      have same : filled reads names (place :: order ++ places) =
          filled reads names (order ++ place :: places) :=
        filled_congr fun other _ => List.perm_middle.symm.mem_iff
      rw [same]
      refine (writes_examine serves name).after ?_
      rw [filled_set here]
      exact others (place :: places)

/-- What the files of a check come to. -/
def verdict (reads : Text → Except FileFailure Text) (names : List Text) : Except Failure Text :=
  Session.verdict (names.map (finding reads))

/-- The files that cannot be read are found to be unreadable. -/
theorem unreadable_finding (name : Text) :
    (finding reads name).unreadable? =
      match reads name with
      | .ok _ => none
      | .error failure => some (name, failure) := by
  unfold Session.Finding.unreadable? finding
  cases reads name <;> rfl

theorem isFaulty_finding (name : Text) :
    (finding reads name).isFaulty = decide (diagnostics reads name ≠ []) := by
  unfold Session.Finding.isFaulty finding diagnostics
  cases reads name with
  | error failure => rfl
  | ok content =>
    cases found : (Reading.ofSource content).diagnostics <;>
      simp [Except.map, Journal.isFaulty, Journal.count, found]

theorem lines_finding (name : Text) :
    (finding reads name).lines.flatten = block reads name := by
  unfold Session.Finding.lines finding block diagnostics Session.linesOf
  cases reads name with
  | error failure => rfl
  | ok content => rw [List.flatMap_def]; rfl

theorem verdict_eq :
    verdict reads names =
      if unreadable reads names ≠ [] then .error (.unreadable (unreadable reads names))
      else if 0 < faulty reads names then .error (.faultyFiles (faulty reads names) names.length)
      else .ok (Text.ofNat names.length ++ text " files ok\n") := by
  have missing : (names.map (finding reads)).filterMap (·.unreadable?) =
      unreadable reads names := by
    rw [List.filterMap_map, unreadable]
    exact congrArg (List.filterMap · names) (funext unreadable_finding)
  have faults : (names.map (finding reads)).countP (·.isFaulty) = faulty reads names := by
    rw [List.countP_map, faulty]
    exact congrArg (List.countP · names) (funext isFaulty_finding)
  rw [verdict, Session.verdict, missing, faults, List.length_map]
  cases unreadable reads names <;> rfl

/-- Behind the failure of a check are the failures of the files that cannot be read. -/
theorem fileFailures_verdict {failure : Failure} (fails : verdict reads names = .error failure) :
    failure.fileFailures = (unreadable reads names).map (·.2) := by
  rw [verdict_eq] at fails
  split at fails
  · cases fails
    rfl
  · rename_i readable
    rw [ne_eq, Decidable.not_not] at readable
    rw [readable]
    split at fails <;> cases fails
    rfl

/-- A check fails for a missing file exactly if one of its files does not exist. -/
theorem missing_iff :
    (∃ failure, verdict reads names = .error failure ∧
        failure.fileFailures.any (·.isMissing) = true) ↔
      ∃ name ∈ names, ∃ why, reads name = .error why ∧ why.isMissing = true := by
  constructor
  · rintro ⟨failure, fails, missing⟩
    rw [fileFailures_verdict fails, List.any_map, List.any_eq_true] at missing
    obtain ⟨⟨name, why⟩, listed, absent⟩ := missing
    obtain ⟨file, given, here⟩ := List.mem_filterMap.mp listed
    cases fails : reads file with
    | ok content => simp [fails] at here
    | error failure =>
      simp only [fails, Option.some.injEq, Prod.mk.injEq] at here
      obtain ⟨rfl, rfl⟩ := here
      exact ⟨_, given, _, fails, absent⟩
  · rintro ⟨name, given, why, fails, absent⟩
    have listed : (name, why) ∈ unreadable reads names :=
      List.mem_filterMap.mpr ⟨name, given, by rw [fails]⟩
    refine ⟨_, by rw [verdict_eq, if_pos (List.ne_nil_of_mem listed)], ?_⟩
    exact List.any_eq_true.mpr ⟨why, List.mem_map.mpr ⟨_, listed, rfl⟩, absent⟩

/-- The files of a check are reported one after the other. -/
theorem writes_blocks (serves : host.Serves base reads) (names : List Text) :
    Writes base (Session.writeAll host.err ((names.map (finding reads)).flatMap (·.lines))) () []
      (names.map (block reads)).flatten := by
  have whole := writes_writeAll serves.err ((names.map (finding reads)).flatMap (·.lines))
  have blocks : ((names.map (finding reads)).flatMap (·.lines)).flatten =
      (names.map (block reads)).flatten := by
    rw [List.flatMap_def, List.map_map, List.flatten_flatten, List.map_map]
    exact congrArg (fun f => (names.map f).flatten) (funext lines_finding)
  rwa [List.flatMap_id', List.flatMap_eq_nil_iff.mpr fun _ _ => rfl, blocks] at whole

/-- A check reports the files in the order of the arguments, and ends as its files say. -/
theorem writes_checkIn (serves : host.Serves base reads) {order : List Nat}
    (all : ∀ place < names.length, place ∈ order) :
    Writes base ((Session.plainOn host).checkIn order names).run
      ((verdict reads names).map fun _ => ()) ((verdict reads names).toOption.getD [])
      (names.map (block reads)).flatten := by
  have surveyed := writes_survey serves names order []
  have found : (names.map fun name => some (finding reads name)).filterMap id =
      names.map (finding reads) := by
    simp [List.filterMap_map]
  rw [filled_nil, List.append_nil, filled_all all] at surveyed
  rw [Session.checkIn]
  refine surveyed.lift.afterOk ?_
  dsimp only
  rw [found, ← List.append_nil (List.flatten _)]
  refine (writes_blocks serves names).lift.bindOk ?_
  have settled : Session.verdict (names.map (finding reads)) = verdict reads names := rfl
  rw [settled]
  cases verdict reads names with
  | error failure => exact .done _
  | ok result => exact (serves.out result).lift.beforeOk (.done _)

end Survey

/-- How a run ends: its exit code, what it fails with, and what is on the two outputs. -/
structure Ending where
  code : Nat
  message? : Option Text
  out : Text
  err : Text
deriving DecidableEq, Repr

/-- The exit code and the message of a result. -/
def Ending.ofResult (out err : Text) : Except Failure Unit → Ending
  | .ok () => ⟨0, none, out, err⟩
  | .error failure => ⟨failure.code, some failure.message, out, err⟩

/-- How a run in a world ends. -/
def World.endingOf (w : World) (x : ExceptT Failure (StateM World) Unit) : Ending :=
  let (result, after) := x.run.run w
  .ofResult after.out.taken after.err.taken result

theorem World.endingOf_eq {w : World} {x : ExceptT Failure (StateM World) Unit}
    {r : Except Failure Unit} {out err : Text} (freshOut : w.out = .unlimited)
    (freshErr : w.err = .unlimited) (ran : Writes w x.run r out err) :
    w.endingOf x = .ofResult out err r := by
  obtain ⟨w', same, rfl, rfl⟩ := ran.run_fresh freshOut freshErr
  simp only [World.endingOf, same]

namespace Survey

/-- How a check of files ends. -/
def ending (reads : Text → Except FileFailure Text) (names : List Text) : Ending :=
  let reported := (names.map (block reads)).flatten
  let total := Text.ofNat names.length
  if unreadable reads names ≠ [] then
    ⟨1, some (Text.joinLines ((unreadable reads names).map fun file =>
      text "read " ++ Quoted.quote file.1 ++ text ": " ++ file.2.message)), [], reported⟩
  else if 0 < faulty reads names then
    ⟨65, some (Text.ofNat (faulty reads names) ++ text " of " ++ total ++
      text " files have errors"), [], reported⟩
  else ⟨0, none, total ++ text " files ok\n", reported⟩

variable {reads : Text → Except FileFailure Text} {names : List Text}

theorem ofResult_verdict :
    Ending.ofResult ((verdict reads names).toOption.getD []) (names.map (block reads)).flatten
      ((verdict reads names).map fun _ => ()) = ending reads names := by
  rw [verdict_eq, ending]
  split
  · rfl
  · split <;> rfl

theorem ending_err : (ending reads names).err = (names.map (block reads)).flatten := by
  unfold ending
  split
  · rfl
  · split <;> rfl

theorem ending_of_perm {others : List Text} (same : others.Perm names) :
    (ending reads others).code = (ending reads names).code ∧
      (ending reads others).out = (ending reads names).out := by
  have missing : (unreadable reads others).Perm (unreadable reads names) := same.filterMap _
  have none : unreadable reads others = [] ↔ unreadable reads names = [] :=
    ⟨fun h => (h ▸ missing).nil_eq.symm, fun h => (h ▸ missing).eq_nil⟩
  have faults : faulty reads others = faulty reads names := same.countP_eq _
  unfold ending
  simp only [ne_eq, none, faults, same.length_eq]
  split
  · exact ⟨rfl, rfl⟩
  · split <;> exact ⟨rfl, rfl⟩

end Survey

namespace Command

variable {m : Type → Type} [Monad m] [LawfulMonad m]

/-- A check of files from the command line, with the files examined in an order of their places. -/
def checkInOrder (host : Host m) (order : List Nat) (names : List Text) :
    ExceptT Failure m Unit := do
  let session ← start host .unset
  session.checkIn order names

theorem checkInOrder_eq (host : Host m) (order : List Nat) (names : List Text) :
    checkInOrder host order names = (Session.plainOn host).checkIn order names := by
  rw [checkInOrder, start_plain host rfl rfl, pure_bind]

/-- The program examines the files from the first to the last. -/
theorem run_check (host : Host m) {names : List Text} (given : names ≠ [])
    (named : ∀ name ∈ names, name.head? ≠ some 0x2d) :
    run host (text "check" :: names) = checkInOrder host (List.range names.length) names := by
  have counted : countOperands .check names = .ok () := by
    rw [countOperands, List.isEmpty_eq_false_iff.mpr given]
    rfl
  rw [checkInOrder_eq]
  exact run_plain host (read_operands .check named) rfl rfl rfl counted

end Command

namespace Survey

variable {w : World} {host : Host (StateM World)} {reads : Text → Except FileFailure Text}
  {names : List Text}

theorem endingOf_checkInOrder (freshOut : w.out = .unlimited) (freshErr : w.err = .unlimited)
    (serves : host.Serves w reads) {order : List Nat}
    (each : order.Perm (List.range names.length)) :
    w.endingOf (Command.checkInOrder host order names) = ending reads names := by
  have all : ∀ place < names.length, place ∈ order := fun place inside =>
    each.mem_iff.mpr (List.mem_range.mpr inside)
  rw [Command.checkInOrder_eq, ← ofResult_verdict]
  exact World.endingOf_eq freshOut freshErr (writes_checkIn serves all)

theorem endingOf_run (freshOut : w.out = .unlimited) (freshErr : w.err = .unlimited)
    (serves : host.Serves w reads) (given : names ≠ [])
    (named : ∀ name ∈ names, name.head? ≠ some 0x2d) :
    w.endingOf (Command.run host (text "check" :: names)) = ending reads names := by
  rw [Command.run_check host given named]
  exact endingOf_checkInOrder freshOut freshErr serves (List.Perm.refl _)

end Survey

/-- A check of files ends in the same way in whatever order the files are examined, and as its files
say, if they are what `reads` says.  What is reported of the files stands in the order of the
arguments on the error output.  If some files cannot be read, all of them are in the message, in
order; if all can be read, the files with diagnostics are counted; only if there are none something
is printed.  Arguments in another order give the same exit code and output, and the same reports in
another order. -/
theorem check_sums_up (w : World) (reads : Text → Except FileFailure Text) (names : List Text)
    (freshOut : w.out = .unlimited) (freshErr : w.err = .unlimited) (given : names ≠ [])
    (named : ∀ name ∈ names, name.head? ≠ some 0x2d) :
    let host := World.hostReading reads
    let ended := w.endingOf (Command.run host (text "check" :: names))
    ended = Survey.ending reads names ∧
    (∀ order : List Nat, order.Perm (List.range names.length) →
      w.endingOf (Command.checkInOrder host order names) = ended) ∧
    ∀ others : List Text, others.Perm names →
      let again := w.endingOf (Command.run host (text "check" :: others))
      again.code = ended.code ∧ again.out = ended.out ∧
        ∃ blocks : List Text, again.err = blocks.flatten ∧
          blocks.Perm (names.map (Survey.block reads)) := by
  intro host ended
  have serves := World.serves_reading w reads
  have here : ended = _ := Survey.endingOf_run freshOut freshErr serves given named
  refine ⟨here, fun order each => ?_, fun others same => ?_⟩
  · rw [here]
    exact Survey.endingOf_checkInOrder freshOut freshErr serves each
  -- The reports of `others` are theirs in their own order, and the blocks are permuted with them.
  have given' : others ≠ [] := fun none => given (none ▸ same).nil_eq.symm
  have named' : ∀ name ∈ others, name.head? ≠ some 0x2d := fun name member =>
    named name (same.mem_iff.mp member)
  have there := Survey.endingOf_run freshOut freshErr serves given' named'
  obtain ⟨code, out⟩ := @Survey.ending_of_perm reads names others same
  rw [here, there]
  exact ⟨code, out, _, Survey.ending_err, same.map _⟩

/-- A world with nothing in it. -/
def emptyWorld : World := ⟨.ok [], .unlimited, .unlimited, [], ⟨[], []⟩⟩

/-- A file without diagnostics, one with a diagnostic, and no others. -/
def twoFiles (name : Text) : Except FileFailure Text :=
  if name = text "good" then .ok (text "lekho 1;")
  else if name = text "bad" then .ok (text "1 = 2;")
  else .error ⟨false, name, .notFound⟩

theorem files_examined_out_of_order :
    let names := [text "bad", text "gone", text "good", text "bad", text "lost"]
    emptyWorld.out = .unlimited ∧ emptyWorld.err = .unlimited ∧ names ≠ [] ∧
    (∀ name ∈ names, name.head? ≠ some 0x2d) ∧
    [3, 1, 4, 0, 2].Perm (List.range names.length) ∧
    emptyWorld.endingOf (Command.checkInOrder (World.hostReading twoFiles) [3, 1, 4, 0, 2] names) =
      ⟨1, some (text "read \"gone\": open gone: no such file or directory\n" ++
          text "read \"lost\": open lost: no such file or directory"), [],
        text "bad: [line 1] Error at '=': Invalid assignment target.\n" ++
          text "bad: [line 1] Error at '=': Invalid assignment target.\n"⟩ := by
  intro names
  have named : ∀ name ∈ names, name.head? ≠ some 0x2d := by decide
  have each : [3, 1, 4, 0, 2].Perm (List.range names.length) := by decide
  obtain ⟨ended, anyOrder, -⟩ := check_sums_up emptyWorld twoFiles names rfl rfl nofun named
  refine ⟨rfl, rfl, nofun, named, each, ((anyOrder _ each).trans ended).trans ?_⟩
  decide +kernel

end Bhasha
