import ComponentMarkdown.CommandLine
import ComponentMarkdown.Proofs.FileTree.Files

/-!
# Runs that end well

A run is planned step by step, and a step that fails ends it. The file has:

* `Run.Ends`: a run ends well, with a result and the actions so far;
* `Run.ends_directoryRun`: when the run on a directory ends well, and what it does then;
* `CommandLine.carryOut_eq`: carrying out a plan is writing its files.
-/

namespace ComponentMarkdown

namespace Run

variable {α β : Type} {before after : List Action} {result : α}

/-- The run ends well: it gives a result and adds to the actions before. -/
def Ends (run : Run α) (before after : List Action) (result : α) : Prop :=
  StateT.run (ExceptT.run run) before = (.ok result, after)

theorem ends_pure {value : α} :
    Ends (pure value) before after result ↔ result = value ∧ after = before := by
  show (Except.ok value, before) = (Except.ok result, after) ↔ _
  rw [Prod.mk.injEq, Except.ok.injEq, eq_comm, eq_comm (a := before)]

theorem ends_throw {failure : Failure} :
    ¬ Ends (throw failure : Run α) before after result := by
  intro ends
  cases ends

theorem ends_bind {run : Run α} {next : α → Run β} {last : β} :
    Ends (run >>= next) before after last ↔
      ∃ result middle, Ends run before middle result ∧ Ends (next result) middle after last := by
  unfold Ends
  rw [ExceptT.run_bind, StateT.run_bind]
  generalize StateT.run (ExceptT.run run) before = found
  obtain ⟨outcome, middle⟩ := found
  cases outcome with
  | error failure =>
    constructor
    · intro ends
      cases ends
    · rintro ⟨result, middle', same, -⟩
      cases same
  | ok value =>
    constructor
    · exact fun ends => ⟨value, middle, rfl, ends⟩
    · rintro ⟨result, middle', same, ends⟩
      cases same
      exact ends

theorem ends_seq {run : Run Unit} {next : Run β} {last : β} :
    Ends (do run; next) before after last ↔
      ∃ middle, Ends run before middle () ∧ Ends next middle after last := by
  rw [ends_bind]
  exact ⟨fun ⟨_, middle, ends⟩ => ⟨middle, ends⟩, fun ⟨middle, ends⟩ => ⟨(), middle, ends⟩⟩

theorem ends_act {action : Action} {done : Unit} :
    Ends (act action) before after done ↔ after = before ++ [action] := by
  show (Except.ok PUnit.unit, before ++ [action]) = (Except.ok done, after) ↔ _
  rw [Prod.mk.injEq, eq_comm (a := before ++ [action])]
  exact and_iff_right rfl

theorem ends_atPath {path : Text} {step : Except FileFault α} :
    Ends (atPath path step) before after result ↔ step = .ok result ∧ after = before := by
  cases step with
  | error fault => exact ⟨fun ends => absurd ends ends_throw, nofun⟩
  | ok value =>
    rw [Except.ok.injEq, eq_comm (a := value)]
    exact ends_pure

/-- What is done to write a file. -/
def writing (file : Text × Text) : List Action :=
  [.write file.1 file.2, .report ("  ✓ ".toList ++ file.1)]

theorem ends_writeFile {tree : FileTree} {path content : Text} {done : Unit} :
    Ends (writeFile tree path content) before after done ↔
      (∃ later, tree.write path content = .ok later) ∧
        after = before ++ writing (path, content) := by
  have acts : ∀ middle,
      Ends (do act (.write path content); act (.report ("  ✓ ".toList ++ path))) middle after done ↔
        after = middle ++ writing (path, content) := by
    intro middle
    rw [ends_seq]
    simp only [ends_act, exists_eq_left, List.append_assoc]
    rfl
  show Ends (((fun _ => ()) <$> atPath path (tree.write path content)) >>= fun _ => _) _ _ _ ↔ _
  rw [map_eq_pure_bind, ends_bind]
  simp only [ends_bind, ends_atPath, ends_pure, acts]
  constructor
  · rintro ⟨_, _, ⟨later, _, ⟨written, rfl⟩, -, rfl⟩, same⟩
    exact ⟨⟨later, written⟩, same⟩
  · rintro ⟨⟨later, written⟩, same⟩
    exact ⟨(), before, ⟨later, before, ⟨written, rfl⟩, trivial, rfl⟩, same⟩

/-- Steps that each end well, with their own actions. -/
theorem ends_forM {ι : Type} {members : List ι} {step : ι → Run Unit} {done : Unit}
    {allowed : ι → Prop} {acted : ι → List Action}
    (each : ∀ member before after, Ends (step member) before after () ↔
      allowed member ∧ after = before ++ acted member) :
    Ends (members.forM step) before after done ↔
      (∀ member ∈ members, allowed member) ∧ after = before ++ members.flatMap acted := by
  induction members generalizing before with
  | nil =>
    rw [List.flatMap_nil, List.append_nil]
    exact ends_pure.trans ⟨fun ends => ⟨List.forall_mem_nil _, ends.2⟩, fun ends => ⟨rfl, ends.2⟩⟩
  | cons member members ih =>
    show Ends (do step member; members.forM step) _ _ _ ↔ _
    rw [ends_seq, List.forall_mem_cons, List.flatMap_cons]
    simp only [each, ih]
    constructor
    · rintro ⟨_, ⟨first, rfl⟩, others, rfl⟩
      exact ⟨⟨first, others⟩, List.append_assoc ..⟩
    · rintro ⟨⟨first, others⟩, rfl⟩
      exact ⟨_, ⟨first, rfl⟩, others, (List.append_assoc ..).symm⟩

/-- A plan without failures is that of a run that ends well. -/
theorem status_plan {run : Run Unit} : run.plan.status = 0 ↔ Ends run [] run.plan.actions () := by
  unfold plan Ends
  generalize StateT.run (ExceptT.run run) [] = found
  obtain ⟨outcome, actions⟩ := found
  cases outcome with
  | error failure => exact ⟨nofun, nofun⟩
  | ok done => exact ⟨fun _ => rfl, fun _ => rfl⟩

end Run

namespace CommandLine

variable {tree : FileTree} {compiler : Compiler} {before after : List Action}

/-! ## Files -/

/-- What is written for a Markdown file. -/
def moduleFile (tree : FileTree) (compiler : Compiler) (path : Text) : Text × Text :=
  (modulePath path,
    moduleText compiler (componentName path none) ((tree.read path).toOption.getD []))

/-- What is written for the Markdown files. -/
def generated (tree : FileTree) (compiler : Compiler) (paths : List Text) : List (Text × Text) :=
  paths.map (moduleFile tree compiler) ++
    (DirectoryIndex.ofPaths paths).map fun index => (index.path, index.content)

/-- Can the file be read, and can its module be written? -/
def Generates (tree : FileTree) (compiler : Compiler) (path : Text) : Prop :=
  (∃ source, tree.read path = .ok source) ∧
    ∃ later, tree.write (modulePath path) (moduleFile tree compiler path).2 = .ok later

theorem ends_fileRun {path : Text} {done : Unit} :
    Run.Ends (fileRun tree compiler none path) before after done ↔
      Generates tree compiler path ∧
        after = before ++ Run.writing (moduleFile tree compiler path) := by
  unfold fileRun Generates
  rw [Run.ends_bind]
  simp only [Run.ends_atPath, Run.ends_writeFile]
  constructor
  · rintro ⟨source, _, ⟨read, rfl⟩, written, same⟩
    have text : (tree.read path).toOption.getD [] = source := by rw [read]; rfl
    unfold moduleFile
    rw [text]
    exact ⟨⟨⟨source, read⟩, written⟩, same⟩
  · rintro ⟨⟨⟨source, read⟩, written⟩, same⟩
    have text : (tree.read path).toOption.getD [] = source := by rw [read]; rfl
    unfold moduleFile at written same
    rw [text] at written same
    exact ⟨source, before, ⟨read, rfl⟩, written, same⟩

/-- When the run on a directory ends well, and what it does then. -/
theorem ends_directoryRun {directory : Text} {done : Unit} :
    Run.Ends (directoryRun tree compiler directory) before after done ↔
      markdownFiles tree directory ≠ [] ∧
      (∀ path ∈ markdownFiles tree directory, Generates tree compiler path) ∧
      (∀ index ∈ DirectoryIndex.ofPaths (markdownFiles tree directory),
        ∃ later, tree.write index.path index.content = .ok later) ∧
      after = before ++ (generated tree compiler (markdownFiles tree directory)).flatMap Run.writing
        ++ [.summarize (markdownFiles tree directory).length] := by
  unfold directoryRun
  dsimp only
  generalize markdownFiles tree directory = paths
  rw [Run.ends_seq]
  simp only [Run.ends_forM (fun _ _ _ => ends_fileRun)]
  cases paths with
  | nil =>
    constructor
    · rintro ⟨middle, -, ends⟩
      obtain ⟨_, _, ends, -⟩ := Run.ends_bind.mp ends
      exact absurd ends Run.ends_throw
    · exact fun ends => absurd rfl ends.1
  | cons path others =>
    rw [if_neg (by simp)]
    simp only [Run.ends_seq, Run.ends_forM (fun _ _ _ => Run.ends_writeFile), Run.ends_act]
    unfold generated
    rw [List.flatMap_append, List.flatMap_map, List.flatMap_map]
    constructor
    · rintro ⟨_, ⟨generates, rfl⟩, _, ⟨indexes, rfl⟩, rfl⟩
      refine ⟨List.cons_ne_nil _ _, generates, indexes, ?_⟩
      simp only [List.append_assoc]
    · rintro ⟨-, generates, indexes, rfl⟩
      refine ⟨_, ⟨generates, rfl⟩, _, ⟨indexes, rfl⟩, ?_⟩
      simp only [List.append_assoc]

/-! ## Options and plans -/

/-- A settings file is only read. -/
theorem configured_eq_pure {path : Option Text} {found : Options}
    (ends : Run.Ends (configured tree path) before after found) :
    configured tree path = pure found ∧ after = before := by
  cases path with
  | none =>
    obtain ⟨rfl, rfl⟩ := Run.ends_pure.mp ends
    exact ⟨rfl, rfl⟩
  | some path =>
    unfold configured at ends ⊢
    obtain ⟨settings, middle, reads, chosen⟩ := Run.ends_bind.mp ends
    obtain ⟨read, rfl⟩ := Run.ends_atPath.mp reads
    have settled : Run.atPath path (tree.read path) = pure settings := by
      rw [read]
      rfl
    simp only [settled, pure_bind]
    split at chosen
    · next options isOptions =>
      obtain ⟨rfl, rfl⟩ := Run.ends_pure.mp chosen
      exact ⟨rfl, rfl⟩
    · exact absurd chosen Run.ends_throw

/-- The options of a run that ends well are settled before anything is done. -/
theorem options_eq_pure {request : Request} {found : Options}
    (ends : Run.Ends (options request tree) before after found) :
    options request tree = pure found ∧ after = before := by
  unfold options at ends ⊢
  obtain ⟨settings, middle, reads, chosen⟩ := Run.ends_bind.mp ends
  obtain ⟨read, rfl⟩ := configured_eq_pure reads
  obtain ⟨rfl, rfl⟩ := Run.ends_pure.mp chosen
  rw [read]
  exact ⟨rfl, rfl⟩

/-- The file that an action writes. -/
def written? : Action → Option (Text × Text)
  | .write path content => some (path, content)
  | _ => none

/-- Carrying out a plan is writing its files. -/
theorem carryOut_eq (tree : FileTree) (plan : Plan) :
    carryOut tree plan = tree.writeAll (plan.actions.filterMap written?) := by
  obtain ⟨actions, status⟩ := plan
  unfold carryOut FileTree.writeAll
  dsimp only
  induction actions generalizing tree with
  | nil => rfl
  | cons action actions ih =>
    cases action with
    | write path content => exact ih _
    | _ => exact ih tree

theorem filterMap_writing (files : List (Text × Text)) :
    (files.flatMap Run.writing).filterMap written? = files := by
  induction files with
  | nil => rfl
  | cons file files ih => rw [List.flatMap_cons, List.filterMap_append, ih]; rfl

end CommandLine

end ComponentMarkdown
