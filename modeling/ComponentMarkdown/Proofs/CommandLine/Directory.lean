import ComponentMarkdown.Proofs.CommandLine.Indexes
import ComponentMarkdown.Proofs.CommandLine.Runs

/-!
# What is generated for a directory

Modules and indexes are written one after the other, and a later one replaces what was written at
its place before. The file has:

* `Request.hasPath_ofArguments?`: a path that is asked for is not empty;
* `FileTree.MarkdownAt`, a Markdown file, with the places of its module and of its index;
* `CommandLine.Distinct` for Markdown files whose modules have different names, none of them that of
  an index;
* `CommandLine.Lossless` for a run after which every module and every index is there;
* `CommandLine.lossless_iff_distinct`: a run is lossless just if the Markdown files are distinct.
-/

namespace ComponentMarkdown

/-! ## Requests -/

namespace Request

variable {request found : Request}

/-- A path that was asked for is not empty. -/
def HasPath (request : Request) : Prop :=
  ∀ path, request.path = some path → path ≠ []

theorem hasPath_withPath {path : Text} (taken : request.withPath path = some found) :
    found.HasPath := by
  unfold withPath at taken
  split at taken
  · cases taken
  · next refused =>
    cases taken
    rintro _ ⟨⟩ rfl
    exact refused rfl

theorem hasPath_of_ite {refused : Prop} [Decidable refused] {next : Request}
    (taken : (if refused then none else some next) = some found) (hasPath : next.HasPath) :
    found.HasPath := by
  split at taken
  · cases taken
  · cases taken
    exact hasPath

theorem hasPath_withSwitch {name : String} (hasPath : request.HasPath)
    (taken : request.withSwitch name = some found) : found.HasPath := by
  unfold withSwitch at taken
  split at taken
  case h_5 => cases taken
  all_goals exact hasPath_of_ite taken hasPath

theorem hasPath_withSetting {name : String} {value : Text} (hasPath : request.HasPath)
    (taken : request.withSetting name value = some found) : found.HasPath := by
  unfold withSetting at taken
  split at taken
  case h_4 => cases taken
  all_goals exact hasPath_of_ite taken hasPath

theorem hasPath_foldlM {paths : List Text} (hasPath : request.HasPath)
    (taken : paths.foldlM withPath request = some found) : found.HasPath := by
  induction paths generalizing request with
  | nil => cases taken; exact hasPath
  | cons path paths ih =>
    obtain ⟨next, isPath, others⟩ := Option.bind_eq_some_iff.mp taken
    exact ih (hasPath_withPath isPath) others

theorem hasPath_readArguments {arguments : List Text} (hasPath : request.HasPath) :
    readArguments request arguments = some found → found.HasPath := by
  fun_induction readArguments request arguments
  case case1 =>
    rintro ⟨⟩
    exact hasPath
  case case2 | case6 | case8 => nofun
  case case3 ih =>
    intro taken
    obtain ⟨next, isPath, others⟩ := Option.bind_eq_some_iff.mp taken
    exact ih next (hasPath_withPath isPath) others
  case case4 => exact hasPath_foldlM hasPath
  case case5 ih | case7 ih =>
    intro taken
    obtain ⟨next, isSetting, others⟩ := Option.bind_eq_some_iff.mp taken
    exact ih next (hasPath_withSetting hasPath isSetting) others
  case case9 ih =>
    intro taken
    obtain ⟨next, isSwitch, others⟩ := Option.bind_eq_some_iff.mp taken
    exact ih next (hasPath_withSwitch hasPath isSwitch) others

theorem hasPath_ofArguments? {arguments : List Text}
    (asked : ofArguments? arguments = some request) : request.HasPath := by
  cases arguments with
  | nil => cases asked
  | cons command arguments =>
    obtain ⟨_, -, asked⟩ := Option.bind_eq_some_iff.mp asked
    obtain ⟨found, taken, asked⟩ := Option.bind_eq_some_iff.mp asked
    obtain ⟨_, -, same⟩ := Option.bind_eq_some_iff.mp asked
    cases same
    exact hasPath_readArguments (fun _ isPath => by cases isPath) taken
end Request

/-! ## Names of modules -/

namespace Path

variable {name stem extension : Text}

theorem eq_of_splitExtension (split : splitExtension name = (stem, some extension)) :
    name = stem ++ '.' :: extension ∧ stem ≠ [] := by
  have parts := List.takeWhile_append_dropWhile (p := (· != '.')) (l := name.reverse)
  unfold splitExtension at split
  split at split
  · next c rest before =>
    rw [before] at parts
    cases split
    refine ⟨?_, by simp⟩
    have whole := congrArg List.reverse parts
    rw [List.reverse_reverse, List.reverse_append, List.reverse_cons, List.append_assoc] at whole
    exact whole.symm
  · cases split

/-- A name with another extension is a name of a file. -/
theorem isFileName_withExtension (isName : IsFileName name)
    (split : splitExtension name = (stem, some extension)) :
    IsFileName (stem ++ ".js".toList) := by
  obtain ⟨rfl, notEmpty⟩ := eq_of_splitExtension split
  have long : 3 < (stem ++ ".js".toList).length := by
    rw [List.length_append]
    exact Nat.add_lt_add_of_lt_of_le (List.length_pos_iff.mpr notEmpty) (Nat.le_refl 3)
  constructor
  · exact List.append_ne_nil_of_left_ne_nil notEmpty _
  · intro slash
    rcases List.mem_append.mp slash with slash | slash
    · exact isName.noSlash (List.mem_append_left _ slash)
    · revert slash
      decide
  · intro same
    rw [same] at long
    exact absurd long (by decide)
  · intro same
    rw [same] at long
    exact absurd long (by decide)

theorem trimReversed_ne_nil {path : Text} (notEmpty : path ≠ []) : trimReversed path ≠ [] := by
  fun_induction trimReversed path
  case case1 => exact List.cons_ne_nil _ _
  case case2 rest notAll ih => exact ih notAll
  case case3 ih => exact ih (List.cons_ne_nil _ _)
  case case4 => exact notEmpty

end Path

/-- An index has a name that a file can have. -/
theorem isFileName_index : IsFileName "index.js".toList := by
  decide

/-! ## Places of modules and indexes -/

namespace FileTree

variable {tree : FileTree} {directory path : Text} {place : Place}

/-- A Markdown file in a directory: its path, and where its module and the index of its directory
are written. -/
structure MarkdownAt (tree : FileTree) (path : Text) (directory : Text) (place : Place) :
    Prop where
  parent : Path.parent path = (Path.trimReversed (Path.slashed directory).reverse).reverse
  locateParent : tree.locate (Path.parent path) = .ok place
  isDirectory : tree.entry? place = some .directory
  isFileName : IsFileName (Path.stem path ++ ".js".toList)
  locateModule : tree.locate (modulePath path) = .ok (place ++ [Path.stem path ++ ".js".toList])
  fileName : Path.fileName (modulePath path) = Path.stem path ++ ".js".toList

theorem FileAt.markdownAt {name : Text} (fileAt : tree.FileAt directory place name)
    (isMarkdown : isMarkdownFile (Path.join directory name) = true) :
    tree.MarkdownAt (Path.join directory name) directory place := by
  obtain ⟨notEmpty, located, isDirectory, isName, -⟩ := fileAt
  have hasExtension : ∃ extension,
      Path.splitExtension name = (Path.stem (Path.join directory name), some extension) := by
    unfold isMarkdownFile Path.extension? at isMarkdown
    rw [Path.fileName_join notEmpty isName.noSlash] at isMarkdown
    rw [Path.stem_join notEmpty isName.noSlash]
    split at isMarkdown
    · next extension found => exact ⟨extension, Prod.ext rfl found⟩
    · cases isMarkdown
  obtain ⟨extension, split⟩ := hasExtension
  have isFileName := Path.isFileName_withExtension isName split
  have moduleIs : modulePath (Path.join directory name) =
      Path.join directory (Path.stem (Path.join directory name) ++ ".js".toList) := by
    rw [Path.stem_join notEmpty isName.noSlash]
    exact Path.withExtension_join notEmpty isName.noSlash _
  refine ⟨Path.parent_join notEmpty isName.noSlash, locate_parent notEmpty located isDirectory
    isName, isDirectory, isFileName, ?_, ?_⟩
  · rw [moduleIs]
    exact locate_join notEmpty located isDirectory isFileName
  · rw [moduleIs]
    exact Path.fileName_join notEmpty isFileName.noSlash

/-- The index of the directory of a Markdown file is written beside its module. -/
theorem MarkdownAt.locateIndex (markdownAt : tree.MarkdownAt path directory place) :
    tree.locate (Path.join (Path.parent path) "index.js".toList) =
      .ok (place ++ ["index.js".toList]) := by
  refine locate_join ?_ markdownAt.locateParent markdownAt.isDirectory isFileName_index
  obtain ⟨front, ends, -⟩ := Path.exists_slashed directory
  rw [markdownAt.parent, ends, List.reverse_append]
  exact fun nothing => Path.trimReversed_ne_nil (List.cons_ne_nil _ _)
    (List.reverse_eq_nil_iff.mp nothing)

end FileTree

namespace CommandLine

variable {tree : FileTree} {compiler : Compiler} {directory path other : Text}
  {place otherPlace : Place}

/-- A Markdown file that is found below a directory stands at a place of its own. -/
def Stands (tree : FileTree) (directory path : Text) (place : Place) : Prop :=
  ∃ start names, tree.locate directory = .ok start ∧ place = start ++ names ∧
    tree.MarkdownAt path (FileTree.below directory names) place

theorem locate_of_look {entry : Entry} (looked : tree.look directory = .ok entry) :
    ∃ start, tree.locate directory = .ok start ∧ tree.entry? start = some entry := by
  unfold FileTree.look at looked
  cases located : tree.locate directory with
  | error fault =>
    rw [located] at looked
    cases looked
  | ok start =>
    rw [located] at looked
    refine ⟨start, rfl, ?_⟩
    cases found : tree.entry? start with
    | none =>
      simp only [bind, Except.bind, found] at looked
      cases looked
    | some other =>
      simp only [bind, Except.bind, found] at looked
      cases looked
      rfl

section Files

variable (named : tree.IsNamed) (notEmpty : directory ≠ [])
  (isDirectory : tree.look directory = .ok .directory)
include named notEmpty isDirectory

theorem stands_of_mem (member : path ∈ markdownFiles tree directory) :
    ∃ place, Stands tree directory path place := by
  obtain ⟨start, located, found⟩ := locate_of_look isDirectory
  unfold markdownFiles FileTree.filesBelow at member
  rw [located] at member
  obtain ⟨isFile, isMarkdown⟩ := List.mem_filter.mp member
  obtain ⟨names, name, rfl, fileAt⟩ :=
    FileTree.fileAt_of_mem named tree.depth notEmpty located found isFile
  exact ⟨start ++ names, start, names, located, rfl, fileAt.markdownAt isMarkdown⟩

theorem nodup_markdownFiles : (markdownFiles tree directory).Nodup := by
  obtain ⟨start, located, found⟩ := locate_of_look isDirectory
  unfold markdownFiles FileTree.filesBelow
  rw [located]
  exact (FileTree.nodup_filesUpTo named tree.depth notEmpty located found).filter _

end Files

/-- Two Markdown files stand in one place just if they have the same parent. -/
theorem place_eq_iff (stands : Stands tree directory path place)
    (otherStands : Stands tree directory other otherPlace) :
    place = otherPlace ↔ Path.parent path = Path.parent other := by
  obtain ⟨start, names, located, same, markdownAt⟩ := stands
  obtain ⟨start', names', located', same', markdownAt'⟩ := otherStands
  cases located.symm.trans located'
  constructor
  · intro samePlace
    have sameNames : names = names' := List.append_cancel_left (same ▸ same' ▸ samePlace)
    rw [markdownAt.parent, markdownAt'.parent, sameNames]
  · intro sameParent
    have found := markdownAt.locateParent
    rw [sameParent, markdownAt'.locateParent] at found
    exact (Except.ok.inj found).symm

/-! ## Lossless runs -/

/-- Markdown files of one directory are named differently, and none is named like an index. -/
structure Distinct (paths : List Text) : Prop where
  components : ∀ path ∈ paths, ∀ other ∈ paths, Path.parent path = Path.parent other →
    componentName path none = componentName other none → path = other
  noIndex : ∀ path ∈ paths, Path.stem path ≠ "index".toList

/-- Nothing is lost when the plan for Markdown files is carried out. -/
structure Lossless (compiler : Compiler) (tree : FileTree) (plan : Plan) (paths : List Text) :
    Prop where
  /-- No two files are written to one place. -/
  apart : ((plan.actions.filterMap written?).map fun file => tree.locate file.1).Nodup
  /-- The module of every Markdown file is there at the end. -/
  modules : ∀ path ∈ paths, ∃ source, tree.read path = .ok source ∧
    (carryOut tree plan).read (modulePath path) =
      .ok (moduleText compiler (componentName path none) source)
  /-- The index of its directory is there, and exports each module of the directory once and by a
  name of its own. -/
  indexes : ∀ path ∈ paths, ∃ modules : List GeneratedModule,
    (carryOut tree plan).read (Path.join (Path.parent path) "index.js".toList) =
      .ok (modules.flatMap (·.exportLine)) ∧
    modules.Perm ((paths.filter (Path.parent · = Path.parent path)).map GeneratedModule.ofPath) ∧
    (modules.map (·.file)).Nodup ∧ (modules.map (·.component)).Nodup

section Lossless

variable {paths : List Text} {plan : Plan}
  (stand : ∀ path ∈ paths, ∃ place, Stands tree directory path place)
include stand

theorem locate_indexPath {index : DirectoryIndex} (member : index ∈ DirectoryIndex.ofPaths paths) :
    ∃ path ∈ paths, Path.parent path = index.directory ∧ ∃ place,
      Stands tree directory path place ∧ tree.entry? place = some .directory ∧
        tree.locate index.path = .ok (place ++ ["index.js".toList]) := by
  obtain ⟨path, isPath, parent⟩ := DirectoryIndex.exists_path member
  obtain ⟨place, stands⟩ := stand path isPath
  obtain ⟨_, _, -, -, markdownAt⟩ := id stands
  refine ⟨path, isPath, parent, place, stands, markdownAt.isDirectory, ?_⟩
  rw [DirectoryIndex.path, ← parent]
  exact markdownAt.locateIndex

/-- What can be written fits where it is written. -/
theorem allFit_generated (generates : ∀ path ∈ paths, Generates tree compiler path)
    (indexes : ∀ index ∈ DirectoryIndex.ofPaths paths,
      ∃ later, tree.write index.path index.content = .ok later) :
    tree.AllFit (generated tree compiler paths) := by
  intro file member
  rcases List.mem_append.mp member with member | member
  · obtain ⟨path, isPath, rfl⟩ := List.mem_map.mp member
    obtain ⟨place, start, names, -, -, markdownAt⟩ := stand path isPath
    obtain ⟨-, later, written⟩ := generates path isPath
    obtain ⟨reached, located, notDirectory, -⟩ := FileTree.write_eq_ok.mp written
    cases located.symm.trans markdownAt.locateModule
    exact ⟨_, located, ⟨_, _, rfl, markdownAt.isDirectory⟩, notDirectory⟩
  · obtain ⟨index, isIndex, rfl⟩ := List.mem_map.mp member
    obtain ⟨path, -, -, place, -, isDirectory, locateIndex⟩ := locate_indexPath stand isIndex
    obtain ⟨later, written⟩ := indexes index isIndex
    obtain ⟨reached, located, notDirectory, -⟩ := FileTree.write_eq_ok.mp written
    cases located.symm.trans locateIndex
    exact ⟨_, located, ⟨_, _, rfl, isDirectory⟩, notDirectory⟩

/-- Distinct files are written to different places. -/
theorem nodup_places (nodup : paths.Nodup) (distinct : Distinct paths) :
    ((generated tree compiler paths).map fun file => tree.locate file.1).Nodup := by
  unfold generated
  rw [List.map_append, List.map_map, List.map_map]
  refine List.Nodup.append ?_ ?_ ?_
  · refine List.Nodup.map_on (fun path isPath other isOther same => ?_) nodup
    obtain ⟨place, stands⟩ := stand path isPath
    obtain ⟨otherPlace, otherStands⟩ := stand other isOther
    obtain ⟨_, _, -, -, markdownAt⟩ := id stands
    obtain ⟨_, _, -, -, otherAt⟩ := id otherStands
    have places := markdownAt.locateModule.symm.trans (same.trans otherAt.locateModule)
    obtain ⟨samePlace, sameName⟩ := List.append_inj' (Except.ok.inj places) rfl
    have sameStem := List.append_cancel_right (List.cons.inj sameName).1
    exact distinct.components path isPath other isOther
      ((place_eq_iff stands otherStands).mp samePlace) (congrArg pascalCase sameStem)
  · have precede := (DirectoryIndex.ordered_ofPaths paths).precede
    refine List.pairwise_map.mpr (precede.imp_of_mem fun isIndex isOther precedes same => ?_)
    obtain ⟨path, -, parent, place, stands, -, located⟩ := locate_indexPath stand isIndex
    obtain ⟨other, -, parent', place', stands', -, located'⟩ := locate_indexPath stand isOther
    have places := located.symm.trans (same.trans located')
    have samePlace := List.append_cancel_right (Except.ok.inj places)
    exact precedes.apart (parent ▸ parent' ▸ (place_eq_iff stands stands').mp samePlace)
  · intro reached isModule isIndex
    obtain ⟨path, isPath, rfl⟩ := List.mem_map.mp isModule
    obtain ⟨index, isIndex, same⟩ := List.mem_map.mp isIndex
    obtain ⟨place, start, names, -, -, markdownAt⟩ := stand path isPath
    obtain ⟨-, -, -, place', -, -, located⟩ := locate_indexPath stand isIndex
    have places := located.symm.trans (same.trans markdownAt.locateModule)
    obtain ⟨-, sameName⟩ := List.append_inj' (Except.ok.inj places) rfl
    have sameStem : "index".toList = Path.stem path :=
      List.append_cancel_right (List.cons.inj sameName).1
    exact distinct.noIndex path isPath sameStem.symm

variable (written : plan.actions.filterMap written? = generated tree compiler paths)
include written

theorem lossless_of_distinct (nodup : paths.Nodup)
    (generates : ∀ path ∈ paths, Generates tree compiler path)
    (indexes : ∀ index ∈ DirectoryIndex.ofPaths paths,
      ∃ later, tree.write index.path index.content = .ok later)
    (distinct : Distinct paths) : Lossless compiler tree plan paths := by
  have fit := allFit_generated stand generates indexes
  have apart := @nodup_places _ compiler _ _ stand nodup distinct
  have read : ∀ file ∈ generated tree compiler paths,
      (carryOut tree plan).read file.1 = .ok file.2 := by
    rw [carryOut_eq, written]
    exact fun file member => FileTree.read_writeAll fit apart member
  refine ⟨written ▸ apart, fun path isPath => ?_, fun path isPath => ?_⟩
  · obtain ⟨⟨source, isSource⟩, -⟩ := generates path isPath
    have found := read _ (List.mem_append_left _ (List.mem_map_of_mem isPath))
    unfold moduleFile at found
    rw [isSource] at found
    exact ⟨source, isSource, found⟩
  · obtain ⟨index, isIndex, sameDirectory⟩ := DirectoryIndex.exists_index isPath
    have found := read _ (List.mem_append_right _ (List.mem_map_of_mem isIndex))
    have perm := DirectoryIndex.modules_perm isIndex
    rw [DirectoryIndex.path, sameDirectory] at found
    rw [sameDirectory] at perm
    have once : ∀ field : GeneratedModule → Text,
        (∀ first ∈ paths, ∀ other ∈ paths, Path.parent first = Path.parent other →
          field (.ofPath first) = field (.ofPath other) → first = other) →
        (index.modules.map field).Nodup := by
      intro field apart
      rw [(perm.map field).nodup_iff, List.map_map]
      refine List.Nodup.map_on (fun first isFirst other isOther same => ?_) (nodup.filter _)
      obtain ⟨isFirst, here⟩ := List.mem_filter.mp isFirst
      obtain ⟨isOther, there⟩ := List.mem_filter.mp isOther
      have sameParent := (of_decide_eq_true here).trans (of_decide_eq_true there).symm
      exact apart first isFirst other isOther sameParent same
    refine ⟨index.modules, found, perm, once (·.file) ?_, once (·.component) distinct.components⟩
    intro first isFirst other isOther sameParent same
    obtain ⟨_, _, _, -, -, firstAt⟩ := stand first isFirst
    obtain ⟨_, _, _, -, -, otherAt⟩ := stand other isOther
    have sameStem := List.append_cancel_right
      (firstAt.fileName.symm.trans (same.trans otherAt.fileName))
    exact distinct.components first isFirst other isOther sameParent (congrArg pascalCase sameStem)

theorem distinct_of_lossless (lossless : Lossless compiler tree plan paths) :
    Distinct paths := by
  obtain ⟨apart, -, indexes⟩ := lossless
  constructor
  · intro path isPath other isOther sameParent sameName
    obtain ⟨modules, -, perm, -, names⟩ := indexes path isPath
    have named := ((perm.map (·.component)).nodup_iff).mp names
    rw [List.map_map] at named
    exact List.inj_on_of_nodup_map named
      (List.mem_filter.mpr ⟨isPath, decide_eq_true rfl⟩)
      (List.mem_filter.mpr ⟨isOther, decide_eq_true sameParent.symm⟩) sameName
  · intro path isPath isStem
    rw [written] at apart
    unfold generated at apart
    rw [List.map_append, List.nodup_append] at apart
    obtain ⟨index, isIndex, sameDirectory⟩ := DirectoryIndex.exists_index isPath
    obtain ⟨place, start, names, -, -, markdownAt⟩ := stand path isPath
    refine apart.2.2 _ (List.mem_map_of_mem (List.mem_map_of_mem isPath)) _
      (List.mem_map_of_mem (List.mem_map_of_mem isIndex)) ?_
    have located := markdownAt.locateIndex
    rw [← sameDirectory] at located
    refine (markdownAt.locateModule.trans ?_).trans located.symm
    rw [isStem]
    rfl

end Lossless

/-- A successful run on a directory loses nothing just if its Markdown files are distinct. -/
theorem lossless_iff_distinct {arguments : List Text} {input : Content} {request : Request}
    (named : tree.IsNamed) (asked : Request.ofArguments? arguments = some request)
    (fromPath : request.stdin = false) (isPath : request.path = some directory)
    (isDirectory : tree.look directory = .ok .directory)
    (succeeds : (plan arguments input tree).status = 0) :
    ∃ options, CommandLine.options request tree = pure options ∧
      (Lossless (Compiler.standard options) tree (plan arguments input tree)
          (markdownFiles tree directory) ↔
        Distinct (markdownFiles tree directory)) := by
  have notEmpty : directory ≠ [] := Request.hasPath_ofArguments? asked directory isPath
  have nodup := nodup_markdownFiles named notEmpty isDirectory
  have stand := fun path => @stands_of_mem _ _ path named notEmpty isDirectory
  unfold plan at succeeds ⊢
  rw [asked] at succeeds ⊢
  have ends := Run.status_plan.mp succeeds
  dsimp only at ends ⊢
  generalize (run request input tree).plan = plan at ends ⊢
  unfold run at ends
  obtain ⟨options, middle, chosen, runs⟩ := Run.ends_bind.mp ends
  obtain ⟨isOptions, rfl⟩ := options_eq_pure chosen
  refine ⟨options, isOptions, ?_⟩
  rw [fromPath, isPath] at runs
  have onPath : Run.Ends (pathRun tree (Compiler.standard options) request.name directory) []
      plan.actions () := runs
  unfold pathRun at onPath
  rw [isDirectory] at onPath
  obtain ⟨-, generates, indexes, actions⟩ := ends_directoryRun.mp onPath
  have written : plan.actions.filterMap written? =
      generated tree (Compiler.standard options) (markdownFiles tree directory) := by
    rw [actions, List.nil_append, List.filterMap_append, filterMap_writing]
    exact List.append_nil _
  exact ⟨distinct_of_lossless stand written,
    lossless_of_distinct stand written nodup generates indexes⟩

/-- Two files with different names. -/
theorem lossless_iff_distinct_apart :
    let tree : FileTree :=
      { entries := [(["d".toList, "a.md".toList], .file (.text "x".toList)),
          (["d".toList, "b.mdx".toList], .file (.text "*y*".toList))] }
    let arguments := ["generate".toList, "d".toList]
    (tree.IsNamed ∧ Request.ofArguments? arguments = some { path := some "d".toList } ∧
      tree.look "d".toList = .ok .directory ∧ (plan arguments .bytes tree).status = 0) ∧
      Lossless (Compiler.standard { initialIndent := 4 }) tree (plan arguments .bytes tree)
        ["d/a.md".toList, "d/b.mdx".toList] := by
  intro tree arguments
  have named : tree.IsNamed := by unfold FileTree.IsNamed; decide +kernel
  have given : Request.ofArguments? arguments = some { path := some "d".toList } ∧
      tree.look "d".toList = .ok .directory ∧ (plan arguments .bytes tree).status = 0 := by
    decide +kernel
  obtain ⟨asked, isDirectory, succeeds⟩ := given
  refine ⟨⟨named, asked, isDirectory, succeeds⟩, ?_⟩
  obtain ⟨options, isOptions, lossless⟩ :=
    lossless_iff_distinct named asked rfl rfl isDirectory succeeds
  have same : options = { initialIndent := 4 } := by
    cases congrArg (fun run => (StateT.run (ExceptT.run run) []).1) isOptions
    rfl
  have found : markdownFiles tree "d".toList = ["d/a.md".toList, "d/b.mdx".toList] := by
    decide +kernel
  rw [same, found] at lossless
  exact lossless.mpr ⟨by decide +kernel, by decide +kernel⟩

/-- Files that are named differently, but not their modules or components: the module of the first
file is replaced by that of the second, the module of the third by the index, and the index exports
two names twice. -/
theorem plan_collisions :
    let tree : FileTree :=
      { entries := [(["d".toList, "a.md".toList], .file (.text "x".toList)),
          (["d".toList, "a.mdx".toList], .file (.text "y".toList)),
          (["d".toList, "index.md".toList], .file (.text "z".toList)),
          (["d".toList, "b-c.md".toList], .file (.text "u".toList)),
          (["d".toList, "b_c.md".toList], .file (.text "v".toList))] }
    let generate := plan ["generate".toList, "d".toList] .bytes tree
    generate.status = 0 ∧
      (generate.actions.filterMap written?).map (·.1) =
        ["d/a.js".toList, "d/a.js".toList, "d/b-c.js".toList, "d/b_c.js".toList,
          "d/index.js".toList, "d/index.js".toList] ∧
      (carryOut tree generate).read "d/index.js".toList =
        .ok ("export \x7b default as A \x7d from './a.js'\n" ++
          "export \x7b default as A \x7d from './a.js'\n" ++
          "export \x7b default as BC \x7d from './b-c.js'\n" ++
          "export \x7b default as BC \x7d from './b_c.js'\n" ++
          "export \x7b default as Index \x7d from './index.js'\n").toList ∧
      ¬ Lossless (Compiler.standard { initialIndent := 4 }) tree generate
        (markdownFiles tree "d".toList) := by
  intro tree generate
  refine ⟨by decide +kernel, by decide +kernel, by decide +kernel, fun lossless => ?_⟩
  exact absurd lossless.apart (by decide +kernel)

end CommandLine

end ComponentMarkdown
