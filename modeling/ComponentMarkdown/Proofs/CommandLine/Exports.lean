import ComponentMarkdown.Proofs.CommandLine.Indexes
import ComponentMarkdown.Proofs.CommandLine.Names
import ComponentMarkdown.Proofs.CommandLine.Runs

/-!
# Indexes export what modules declare

An index exports each module of its directory by the name of the function in it, although the module
makes that name once more. The file has:

* `Run.Begins`: however a run ends, what it does is a beginning of some actions;
* `CommandLine.written_directoryRun`: what a run on a directory writes, whether it ends well or not;
* `CommandLine.exports_agree`: the names in the indexes are those in the modules.
-/

namespace ComponentMarkdown

namespace Run

variable {α β : Type} {first second : List Action}

/-- The run does a beginning of the actions, and all of them if it ends well. -/
def Begins (run : Run α) (actions : List Action) : Prop :=
  ∀ before, ∃ outcome acted, StateT.run (ExceptT.run run) before = (outcome, before ++ acted) ∧
    acted <+: actions ∧ ∀ result, outcome = .ok result → acted = actions

theorem begins_pure (value : α) : Begins (pure value) [] := fun before =>
  ⟨.ok value, [], by rw [List.append_nil]; rfl, List.prefix_refl [], fun _ _ => rfl⟩

theorem begins_throw (failure : Failure) (actions : List Action) :
    Begins (throw failure : Run α) actions := fun before =>
  ⟨.error failure, [], by rw [List.append_nil]; rfl, List.nil_prefix, nofun⟩

theorem begins_act (action : Action) : Begins (act action) [action] := fun _ =>
  ⟨.ok (), [action], rfl, List.prefix_refl _, fun _ _ => rfl⟩

theorem begins_atPath (path : Text) (step : Except FileFault α) : Begins (atPath path step) [] := by
  cases step with
  | error fault => exact begins_throw _ _
  | ok value => exact begins_pure value

/-- A second step matters only with a result of the first one. -/
theorem begins_bind {run : Run α} {next : α → Run β} (begins : Begins run first)
    (later : ∀ before after result, Ends run before after result → Begins (next result) second) :
    Begins (run >>= next) (first ++ second) := by
  intro before
  obtain ⟨outcome, acted, same, isPrefix, whole⟩ := begins before
  rw [ExceptT.run_bind, StateT.run_bind, same]
  cases outcome with
  | error failure =>
    exact ⟨.error failure, acted, rfl, isPrefix.trans (List.prefix_append first second), nofun⟩
  | ok result =>
    cases whole result rfl
    obtain ⟨last, more, same', isPrefix', whole'⟩ :=
      later before (before ++ first) result same (before ++ first)
    refine ⟨last, first ++ more, ?_, (List.prefix_append_right_inj first).mpr isPrefix', ?_⟩
    · rw [← List.append_assoc]
      exact same'
    · exact fun value isLast => congrArg (first ++ ·) (whole' value isLast)

theorem begins_forM {ι : Type} {members : List ι} {step : ι → Run Unit} {acted : ι → List Action}
    (each : ∀ member, Begins (step member) (acted member)) :
    Begins (members.forM step) (members.flatMap acted) := by
  induction members with
  | nil => exact begins_pure ()
  | cons member members ih => exact begins_bind (each member) fun _ _ _ _ => ih

theorem begins_writeFile (tree : FileTree) (path content : Text) :
    Begins (writeFile tree path content) (writing (path, content)) := by
  have written : Begins (discard (atPath path (tree.write path content))) [] :=
    begins_bind (begins_atPath path _) fun _ _ _ _ => begins_pure ()
  exact begins_bind written fun _ _ _ _ =>
    begins_bind (begins_act (.write path content)) fun _ _ _ _ => begins_act _

/-- A plan holds a beginning of the actions, perhaps with the report of a failure. -/
theorem plan_of_begins {run : Run Unit} {actions : List Action} (begins : Begins run actions) :
    (∃ acted, acted <+: actions ∧
      (run.plan.actions = acted ∨ ∃ line, run.plan.actions = acted ++ [.report line])) ∧
      (run.plan.status = 0 → run.plan.actions = actions) := by
  obtain ⟨outcome, acted, same, isPrefix, whole⟩ := begins []
  unfold plan
  rw [same]
  cases outcome with
  | error failure => exact ⟨⟨acted, isPrefix, .inr ⟨failure.line, rfl⟩⟩, nofun⟩
  | ok done => exact ⟨⟨acted, isPrefix, .inl rfl⟩, fun _ => whole done rfl⟩

end Run

namespace CommandLine

variable {tree : FileTree} {compiler : Compiler}

/-! ## What a run on a directory writes -/

/-- The files that a run on a directory writes. -/
def written (tree : FileTree) (compiler : Compiler) (directory : Text) : List (Text × Text) :=
  (directoryRun tree compiler directory).plan.actions.filterMap written?

theorem begins_fileRun (path : Text) :
    Run.Begins (fileRun tree compiler none path) (Run.writing (moduleFile tree compiler path)) := by
  refine Run.begins_bind (Run.begins_atPath path _) fun before after source ends => ?_
  obtain ⟨read, -⟩ := Run.ends_atPath.mp ends
  unfold moduleFile
  rw [read]
  exact Run.begins_writeFile tree _ _

theorem begins_directoryRun (tree : FileTree) (compiler : Compiler) (directory : Text) :
    Run.Begins (directoryRun tree compiler directory)
      ((generated tree compiler (markdownFiles tree directory)).flatMap Run.writing ++
        [.summarize (markdownFiles tree directory).length]) := by
  unfold directoryRun generated
  dsimp only
  rw [List.flatMap_append, List.flatMap_map, List.flatMap_map, List.append_assoc]
  refine Run.begins_bind (Run.begins_forM begins_fileRun) fun _ _ _ _ => ?_
  split
  · exact Run.begins_bind (Run.begins_throw _ _) fun _ _ _ ends => absurd ends Run.ends_throw
  · exact Run.begins_bind
      (Run.begins_forM fun index => Run.begins_writeFile tree index.path index.content)
      fun _ _ _ _ => Run.begins_act _

/-- A run on a directory writes a beginning of the modules and indexes, and all of them if it ends
well. -/
theorem written_directoryRun (tree : FileTree) (compiler : Compiler) (directory : Text) :
    written tree compiler directory <+: generated tree compiler (markdownFiles tree directory) ∧
      ((directoryRun tree compiler directory).plan.status = 0 →
        written tree compiler directory =
          generated tree compiler (markdownFiles tree directory)) := by
  obtain ⟨⟨acted, isPrefix, found⟩, whole⟩ :=
    Run.plan_of_begins (begins_directoryRun tree compiler directory)
  have files : ∀ count, ((generated tree compiler (markdownFiles tree directory)).flatMap
      Run.writing ++ [Action.summarize count]).filterMap written? =
        generated tree compiler (markdownFiles tree directory) := by
    intro count
    rw [List.filterMap_append, filterMap_writing]
    exact List.append_nil _
  have inPlan : acted.filterMap written? = written tree compiler directory := by
    unfold written
    rcases found with same | ⟨line, same⟩
    · rw [same]
    · rw [same, List.filterMap_append]
      exact (List.append_nil _).symm
  refine ⟨?_, fun endsWell => ?_⟩
  · rw [← inPlan, ← files (markdownFiles tree directory).length]
    exact isPrefix.filterMap written?
  · unfold written
    rw [whole endsWell, files]

/-! ## Names -/

/-- What is written for a Markdown file declares its function by the name of the component. -/
theorem moduleFile_eq (path : Text) : moduleFile tree compiler path =
    (modulePath path, declaring (GeneratedModule.ofPath path).component
      (compiler.compile ((tree.read path).toOption.getD []))) := by
  unfold moduleFile moduleText GeneratedModule.ofPath componentName
  rw [componentModule_eq, pascalCase_pascalCase]

/-- Indexes are written when all modules are. -/
theorem mem_or_subset_of_prefix {α : Type} {files modules indexes : List α} {file : α}
    (isPrefix : files <+: modules ++ indexes) (member : file ∈ files) :
    file ∈ modules ∨ file ∈ indexes ∧ modules ⊆ files := by
  rcases List.prefix_or_prefix_of_prefix isPrefix (List.prefix_append modules indexes) with
    inside | beyond
  · exact .inl (inside.subset member)
  · obtain ⟨others, rfl⟩ := beyond
    have inside := (List.prefix_append_right_inj modules).mp isPrefix
    exact (List.mem_append.mp member).imp_right fun isOther =>
      ⟨inside.subset isOther, List.subset_append_left modules others⟩

/-- An index exports the module of a Markdown file: the module is written beside the index, and the
name of its function is the one that it is exported by. -/
structure Exports (tree : FileTree) (compiler : Compiler) (directory : Text)
    (index : DirectoryIndex) (m : GeneratedModule) (path : Text) : Prop where
  isFound : path ∈ markdownFiles tree directory
  beside : Path.parent path = index.directory
  file : m.file = Path.fileName (modulePath path)
  declares : (modulePath path,
    declaring m.component (compiler.compile ((tree.read path).toOption.getD []))) ∈
      written tree compiler directory

/-- The name of a component stays as it is when it is made once more. So the function of a module
has the name that was made for it, and whatever a run on a directory writes, whether it ends well or
not, is the module of a Markdown file with a function of that name, or an index that exports written
modules by the names of their functions. A run that ends well exports every module. -/
theorem exports_agree (tree : FileTree) (compiler : Compiler) (directory : Text) :
    (∀ name, pascalCase (pascalCase name) = pascalCase name) ∧
      (∀ name rendered,
        componentModule (pascalCase name) rendered = declaring (pascalCase name) rendered) ∧
      (∀ file ∈ written tree compiler directory,
        (∃ path ∈ markdownFiles tree directory,
          file = (modulePath path, declaring (GeneratedModule.ofPath path).component
            (compiler.compile ((tree.read path).toOption.getD [])))) ∨
        ∃ index ∈ DirectoryIndex.ofPaths (markdownFiles tree directory),
          file = (index.path, index.modules.flatMap (·.exportLine)) ∧
            ∀ m ∈ index.modules, ∃ path, Exports tree compiler directory index m path) ∧
      ((directoryRun tree compiler directory).plan.status = 0 →
        ∀ path ∈ markdownFiles tree directory,
          ∃ index ∈ DirectoryIndex.ofPaths (markdownFiles tree directory),
            (index.path, index.modules.flatMap (·.exportLine)) ∈
                written tree compiler directory ∧
              Exports tree compiler directory index (GeneratedModule.ofPath path) path ∧
                GeneratedModule.ofPath path ∈ index.modules) := by
  obtain ⟨isPrefix, whole⟩ := written_directoryRun tree compiler directory
  unfold generated at isPrefix whole
  refine ⟨pascalCase_pascalCase, fun name rendered => ?_, fun file member => ?_,
    fun endsWell path isFound => ?_⟩
  · rw [componentModule_eq, pascalCase_pascalCase]
  · rcases mem_or_subset_of_prefix isPrefix member with isModule | ⟨isIndex, modules⟩
    · obtain ⟨path, isFound, rfl⟩ := List.mem_map.mp isModule
      exact .inl ⟨path, isFound, moduleFile_eq path⟩
    · obtain ⟨index, inIndexes, rfl⟩ := List.mem_map.mp isIndex
      refine .inr ⟨index, inIndexes, rfl, fun m isExported => ?_⟩
      have isModule := (DirectoryIndex.modules_perm inIndexes).mem_iff.mp isExported
      obtain ⟨path, found, rfl⟩ := List.mem_map.mp isModule
      obtain ⟨isFound, beside⟩ := List.mem_filter.mp found
      refine ⟨path, isFound, of_decide_eq_true beside, rfl, ?_⟩
      rw [← moduleFile_eq]
      exact modules (List.mem_map_of_mem isFound)
  · obtain ⟨index, isIndex, beside⟩ := DirectoryIndex.exists_index isFound
    rw [whole endsWell]
    refine ⟨index, isIndex, List.mem_append_right _ (List.mem_map.mpr ⟨index, isIndex, rfl⟩),
      ⟨isFound, beside.symm, rfl, ?_⟩, ?_⟩
    · rw [whole endsWell, ← moduleFile_eq]
      exact List.mem_append_left _ (List.mem_map_of_mem isFound)
    · exact (DirectoryIndex.modules_perm isIndex).mem_iff.mpr
        (List.mem_map_of_mem (List.mem_filter.mpr ⟨isFound, decide_eq_true beside.symm⟩))

/-- The second name is made with a mark before it, which is there already the next time. -/
theorem exports_agree_marked :
    let tree : FileTree :=
      { entries := [(["d".toList, "a-b.md".toList], .file (.text "x".toList)),
          (["d".toList, "2_c.mdx".toList], .file (.text "*y*".toList))] }
    let compiler := Compiler.standard { initialIndent := 4 }
    (directoryRun tree compiler "d".toList).plan.status = 0 ∧
      ∃ index ∈ DirectoryIndex.ofPaths (markdownFiles tree "d".toList),
        (GeneratedModule.ofPath "d/2_c.mdx".toList).component = "_2C".toList ∧
          Exports tree compiler "d".toList index (GeneratedModule.ofPath "d/2_c.mdx".toList)
            "d/2_c.mdx".toList := by
  intro tree compiler
  have endsWell : (directoryRun tree compiler "d".toList).plan.status = 0 := by decide +kernel
  have isFound : "d/2_c.mdx".toList ∈ markdownFiles tree "d".toList := by decide +kernel
  obtain ⟨index, isIndex, -, exported, -⟩ :=
    (exports_agree tree compiler "d".toList).2.2.2 endsWell _ isFound
  exact ⟨endsWell, index, isIndex, by decide +kernel, exported⟩

end CommandLine

end ComponentMarkdown
