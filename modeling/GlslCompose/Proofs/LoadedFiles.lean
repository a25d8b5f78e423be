/-
`Proofs/LoadedFiles.lean` -- loaded files are found under their own names.

To load a file is to register its text under its name without the extension, behind the
directory that is loaded into. To look for it is to resolve its name relative to that
directory. The two paths come about in different ways: the one is written down and only has
its slashes put in order, the other is walked. They are the same (`collapse_eq_resolve`),
because nothing in a row of names leads back, and because a name without its extension is
still a name (`names_splitExtension`).

The rest is about many files. They are registered in the order of their names, and two that
are registered at different paths do not meet. So each is found (`source?_insertAll_of_mem`),
whatever is not among them stays (`source?_insertAll_of_notMem`), and once all are in place
registering them again changes nothing.
-/
import Mathlib.Data.List.Nodup
import GlslCompose.Proofs.PathWalk
import GlslCompose.Proofs.Registrations

set_option autoImplicit false

namespace GlslCompose

/-! ## Rows of names -/

namespace Path

/-- A path that is a row of names, with a slash between one and the next. -/
def Names (path : Text) : Prop := ∀ part ∈ path.splitOn '/', Named part

instance (path : Text) : Decidable (Names path) := List.decidableBAll _ _

theorem Names.components_eq {path : Text} (h : Names path) : components path = path.splitOn '/' := by
  rw [components, Text.pieces_eq_splitOn]
  exact List.filter_eq_self.2 fun part hmem => decide_eq_true (h part hmem).ne_nil

theorem Names.head?_ne {path : Text} (h : Names path) : path.head? ≠ some '/' := by
  intro hhead
  obtain ⟨t, rfl⟩ := List.head?_eq_some_iff.1 hhead
  exact (h [] (splitOn_slash t ▸ List.mem_cons_self)).ne_nil rfl

theorem Names.getLast?_ne {path : Text} (h : Names path) : path.getLast? ≠ some '/' := by
  have hpath : List.intercalate ['/'] (path.splitOn '/') = path := List.intercalate_splitOn '/'
  rw [← hpath]
  refine getLast?_intercalate (fun part hmem => ?_) fun part hmem => (h part hmem).ne_nil
  rw [← Text.pieces_eq_splitOn] at hmem
  exact Text.notMem_of_mem_pieces hmem

/-- Different rows of names have different components. -/
theorem eq_of_components_eq {path other : Text} (h : Names path) (hother : Names other)
    (heq : components path = components other) : path = other := by
  rw [h.components_eq, hother.components_eq] at heq
  calc
    path = List.intercalate ['/'] (path.splitOn '/') := (List.intercalate_splitOn '/').symm
    _ = other := by rw [heq, List.intercalate_splitOn]

/-- Behind the last slash there is one more piece, whatever it is. -/
theorem exists_pieces_append {head : Text} (h : head = [] ∨ ∃ front, head = front ++ ['/']) :
    ∃ before, ∀ part, '/' ∉ part → Text.pieces '/' (head ++ part) = before ++ [part] := by
  rcases h with rfl | ⟨front, rfl⟩
  · exact ⟨[], fun part hpart => Text.pieces_of_notMem hpart⟩
  · refine ⟨Text.pieces '/' front, fun part hpart => ?_⟩
    rw [List.append_assoc, List.singleton_append, Text.pieces_append_cons,
      Text.pieces_of_notMem hpart]

/-- **A row of names without its extension is a row of names.** What stands before an extension is
more than dots. -/
theorem names_splitExtension {path : Text} (h : Names path) : Names (splitExtension path).1 := by
  by_cases hext : (splitExtension path).2 = []
  · rwa [splitExtension_of_bare hext]
  · obtain ⟨head, stem, ext, hpath, hstem, hhead, hname, hdots⟩ := splitExtension_of_extension hext
    obtain ⟨before, hbefore⟩ := exists_pieces_append hhead
    have hslash : '/' ∉ stem := fun hmem => hname (List.mem_append_left _ hmem)
    rw [Names, hpath, List.append_assoc, ← Text.pieces_eq_splitOn, hbefore _ hname,
      List.forall_mem_append] at h
    rw [Names, hstem, ← Text.pieces_eq_splitOn, hbefore _ hslash]
    refine List.forall_mem_append.2 ⟨h.1, List.forall_mem_singleton.2 ⟨?_, ?_, ?_⟩⟩ <;>
      rintro rfl <;> exact absurd hdots (by decide)

/-! ## Names in a directory -/

/-- A directory from which nothing leads back. -/
def Onward (directory : Text) : Prop := ∀ part ∈ directory.splitOn '/', part ≠ "." ∧ part ≠ ".."

instance (directory : Text) : Decidable (Onward directory) := List.decidableBAll _ _

/-- A row of names in a directory, as it is registered. -/
theorem collapse_in_directory {names : Text} (h : Names names) (directory : Text) :
    collapse (directory ++ '/' :: names)
      = List.intercalate ['/'] (components directory ++ components names) := by
  have hcomponents : components (directory ++ '/' :: names)
      = components directory ++ components names := by
    rw [components, Text.pieces_append_cons, List.filter_append]
    rfl
  have hne : components names ≠ [] := by
    rw [h.components_eq]
    exact List.splitOn_ne_nil '/' names
  have hlast : (directory ++ '/' :: names).getLast? ≠ some '/' := by
    have hnames : names ≠ [] := by
      rintro rfl
      exact hne rfl
    rw [List.append_cons, List.getLast?_append_of_ne_nil _ hnames]
    exact h.getLast?_ne
  rw [collapse_eq (by rw [hcomponents]; exact List.append_ne_nil_of_right_ne_nil _ hne), hcomponents,
    endSlash, if_neg hlast, List.append_nil]

/-- **A name is looked for where it is registered.** -/
theorem collapse_eq_resolve {name directory : Text} (hname : Names name)
    (hdirectory : Onward directory) :
    collapse (directory ++ '/' :: (splitExtension name).1) = FragmentStore.resolve name directory := by
  have hstem := names_splitExtension hname
  have hforward : ∀ part ∈ (splitExtension name).1.splitOn '/', part ≠ "." ∧ part ≠ ".." :=
    fun part hmem => ⟨(hstem part hmem).ne_dot, (hstem part hmem).ne_dots⟩
  rw [collapse_in_directory hstem, (resolve_eq_walk name directory).1, if_neg hname.head?_ne,
    walk_eq_append hdirectory, walk_eq_append hforward, List.nil_append, components,
    Text.pieces_eq_splitOn, components, Text.pieces_eq_splitOn]

/-- Different rows of names are registered at different paths of a directory. -/
theorem collapse_in_directory_inj {directory names other : Text} (hnames : Names names)
    (hother : Names other)
    (h : collapse (directory ++ '/' :: names) = collapse (directory ++ '/' :: other)) :
    names = other := by
  have hrow : ∀ row, Names row →
      components (List.intercalate ['/'] (components directory ++ components row))
        = components directory ++ components row := fun row _ =>
    components_intercalate
      (List.forall_mem_append.2 ⟨fun _ => slash_notMem_of_mem, fun _ => slash_notMem_of_mem⟩)
      (List.forall_mem_append.2 ⟨fun _ => ne_nil_of_mem, fun _ => ne_nil_of_mem⟩)
  rw [collapse_in_directory hnames, collapse_in_directory hother] at h
  have hparts := congrArg components h
  rw [hrow names hnames, hrow other hother] at hparts
  exact eq_of_components_eq hnames hother (List.append_cancel_left hparts)

end Path

/-! ## Texts in order -/

namespace Value

/-- Values that are all texts. -/
def AllTexts (values : List Value) : Prop := ∀ v ∈ values, ∃ s, v = text s

theorem exists_before {v w : Value} (hv : ∃ s, v = text s) (hw : ∃ s, w = text s) :
    ∃ b, v.before w = .ok b := by
  obtain ⟨s, rfl⟩ := hv
  obtain ⟨t, rfl⟩ := hw
  exact ⟨_, rfl⟩

theorem exists_runLength (falling : Bool) {v : Value} {values : List Value}
    (h : AllTexts (v :: values)) : ∃ n, runLength falling v values = .ok n := by
  induction values generalizing v with
  | nil => exact ⟨0, rfl⟩
  | cons w rest ih =>
    obtain ⟨hv, hrest⟩ := List.forall_mem_cons.1 h
    obtain ⟨falls, hfalls⟩ := exists_before (List.forall_mem_cons.1 hrest).1 hv
    obtain ⟨n, hn⟩ := ih hrest
    simp only [runLength, hfalls, hn, bind, Except.bind, pure, Except.pure]
    split
    · exact ⟨_, rfl⟩
    · exact ⟨_, rfl⟩

theorem exists_placeFrom {v : Value} {sorted : List Value} (hv : ∃ s, v = text s)
    (hsorted : AllTexts sorted) (low high : Nat) : ∃ n, placeFrom v sorted low high = .ok n := by
  fun_induction placeFrom v sorted low high with
  | case1 low high _ middle hnone => exact ⟨low, rfl⟩
  | case2 low high _ middle w hw fault hfault =>
    obtain ⟨b, hb⟩ := exists_before hv (hsorted w (List.mem_of_getElem? hw))
    rw [hb] at hfault
    cases hfault
  | case3 low high _ middle w hw hbefore ih => exact ih
  | case4 low high _ middle w hw hbefore ih => exact ih
  | case5 low high _ => exact ⟨low, rfl⟩

theorem exists_insertSorted {v : Value} {sorted : List Value} (hv : ∃ s, v = text s)
    (hsorted : AllTexts sorted) : ∃ values, insertSorted sorted v = .ok values ∧ AllTexts values := by
  obtain ⟨n, hn⟩ := exists_placeFrom hv hsorted 0 sorted.length
  refine ⟨sorted.take n ++ v :: sorted.drop n, ?_, ?_⟩
  · rw [insertSorted, hn]
    rfl
  · refine List.forall_mem_append.2 ⟨fun w hw => hsorted w (List.mem_of_mem_take hw), ?_⟩
    exact List.forall_mem_cons.2 ⟨hv, fun w hw => hsorted w (List.mem_of_mem_drop hw)⟩

theorem exists_foldlM_insertSorted {values : List Value} (hvalues : AllTexts values)
    {sorted : List Value} (hsorted : AllTexts sorted) :
    ∃ result, values.foldlM insertSorted sorted = .ok result ∧ AllTexts result := by
  induction values generalizing sorted with
  | nil => exact ⟨sorted, rfl, hsorted⟩
  | cons v values ih =>
    obtain ⟨hv, hvalues⟩ := List.forall_mem_cons.1 hvalues
    obtain ⟨next, hnext, htexts⟩ := exists_insertSorted hv hsorted
    rw [List.foldlM_cons, hnext]
    exact ih hvalues htexts

/-- **Texts can be put in order,** and stay texts. -/
theorem exists_sorted {values : List Value} (h : AllTexts values) :
    ∃ result, sorted values = .ok result ∧ AllTexts result := by
  match values with
  | [] => exact ⟨[], rfl, h⟩
  | [v] => exact ⟨[v], rfl, h⟩
  | v :: w :: rest =>
    obtain ⟨hv, hrest⟩ := List.forall_mem_cons.1 h
    obtain ⟨falling, hfalling⟩ := exists_before (List.forall_mem_cons.1 hrest).1 hv
    obtain ⟨n, hn⟩ := exists_runLength falling hrest
    simp only [sorted, hfalling, hn, bind, Except.bind]
    refine exists_foldlM_insertSorted (fun u hu => h u (List.mem_of_mem_drop hu)) ?_
    split
    · exact fun u hu => h u (List.mem_of_mem_take (List.mem_reverse.1 hu))
    · exact fun u hu => h u (List.mem_of_mem_take hu)

end Value

namespace FragmentStore

/-! ## Many texts at different paths -/

/-- A path at which nothing is registered keeps what it has. -/
theorem source?_insertAll_of_notMem {entries : List (Text × Text)} {path : Text}
    (h : path ∉ entries.map fun entry => Path.collapse entry.1) (store : FragmentStore) :
    (store.insertAll entries).source? path = store.source? path := by
  rw [source?, (counts_insertAll store entries).edited]
  exact get?_editAll_of_notMem (by rwa [List.map_map]) store.fragments

/-- **Of texts that are registered at different paths each is found at its own.** -/
theorem source?_insertAll_of_mem {entries : List (Text × Text)}
    (hdistinct : (entries.map fun entry => Path.collapse entry.1).Nodup) {entry : Text × Text}
    (h : entry ∈ entries) (store : FragmentStore) :
    (store.insertAll entries).source? (Path.collapse entry.1) = some entry.2 := by
  rw [source?, (counts_insertAll store entries).edited]
  exact get?_editAll_of_mem (by rwa [List.map_map]) (List.mem_map_of_mem h) store.fragments

/-! ## Files -/

/-- Named texts as a value. -/
def filesValue (files : List (Text × Text)) : Value :=
  .map (files.map fun file => (.text file.1, .text file.2))

/-- Whether a filter wants a file, by its name. -/
def ExtensionFilter.wants (filter : ExtensionFilter) (name : Text) : Bool :=
  match filter with
  | all => true
  | among extensions => extensions.contains (.text (Path.splitExtension name).2)
  | within extensions => Text.hasPart (Path.splitExtension name).2 extensions.chars

/-- A filter of texts: any but one that looks for extensions in bytes. -/
def ExtensionFilter.OfTexts (filter : ExtensionFilter) : Prop := ∀ bs, filter ≠ .within (.bytes bs)

theorem ExtensionFilter.accepts_text {filter : ExtensionFilter} (h : filter.OfTexts) (name : Text) :
    filter.accepts (.text (Path.splitExtension name).2) = .ok (filter.wants name) := by
  cases filter with
  | all => rfl
  | among extensions => rfl
  | within extensions =>
    cases extensions with
    | text extensions => rfl
    | bytes bs => exact absurd rfl (h bs)

/-- What is registered of a file in a directory. -/
def fileEntry (directory : Text) (file : Text × Text) : Text × Text :=
  (directory ++ '/' :: (Path.splitExtension file.1).1, file.2)

theorem namedSources_files (files : List (Text × Text)) :
    namedSources (files.map fun file => (.text file.1, .text file.2))
      = .ok (files.map fun file => (.text file.1, .text file.2)) := by
  have htexts : Value.AllTexts
      ((files.map fun file => (Value.text file.1, Value.text file.2)).map Prod.fst) := by
    intro v hv
    simp only [List.map_map, List.mem_map] at hv
    obtain ⟨file, -, rfl⟩ := hv
    exact ⟨file.1, rfl⟩
  obtain ⟨names, hnames, hsorted⟩ := Value.exists_sorted htexts
  have hfind : names.find? (fun name => (FileName.ofValue? name).isNone) = none := by
    refine List.find?_eq_none.2 fun name hmem => ?_
    obtain ⟨s, rfl⟩ := hsorted name hmem
    exact Bool.false_ne_true
  have hnamed : ∀ file : Text × Text,
      (FileName.ofValue? (Value.text file.1)).map (fun name => (name, Value.text file.2))
        = some (FileName.text file.1, Value.text file.2) := fun _ => rfl
  simp only [namedSources, hnames, bind, Except.bind, hfind, pure, Except.pure, List.filterMap_map,
    Function.comp_def, hnamed, List.filterMap_eq_map']

/-- The files of a collection come in the order of their names, and all of them do. -/
theorem exists_sortedFiles (files : List (Text × Text)) :
    ∃ order : List (Text × Text), order.Perm files ∧
      sortedFiles (files.map fun file => (FileName.text file.1, Value.text file.2))
        = order.map fun file => (FileName.text file.1, Value.text file.2) := by
  refine ⟨files.mergeSort fun file other => Text.le file.1 other.1, List.mergeSort_perm _ _, ?_⟩
  rw [sortedFiles, List.map_mergeSort]
  exact fun _ _ _ _ => rfl

theorem fileLeaves_files {filter : ExtensionFilter} (h : filter.OfTexts) (directory : Text)
    (files : List (Text × Text)) :
    fileLeaves directory filter (files.map fun file => (FileName.text file.1, Value.text file.2))
      = ((files.filter fun file => filter.wants file.1).map (fileEntry directory)).map some := by
  induction files with
  | nil => rfl
  | cons file files ih =>
    rw [List.map_cons, fileLeaves]
    simp only [FileName.splitExtension_text, ExtensionFilter.accepts_text h, FileName.written_text]
    cases hwants : filter.wants file.1 with
    | false => rw [List.filter_cons_of_neg (by simp [hwants])]; exact ih
    | true => rw [List.filter_cons_of_pos (by simp [hwants])]; exact congrArg (List.cons _) ih

/-- **What is registered of files that are loaded:** the text of each wanted one, under its name without
the extension. -/
theorem exists_loadedLeaves {extensions : Value} {filter : ExtensionFilter}
    (hextensions : ExtensionFilter.ofValue extensions = .ok filter) (htexts : filter.OfTexts)
    (directory : Text) (files : List (Text × Text)) :
    ∃ order : List (Text × Text), order.Perm (files.filter fun file => filter.wants file.1) ∧
      loadedLeaves (filesValue files) (.text directory) extensions
        = (order.map (fileEntry directory)).map some := by
  obtain ⟨order, hperm, horder⟩ := exists_sortedFiles files
  refine ⟨order.filter fun file => filter.wants file.1, hperm.filter _, ?_⟩
  rw [← fileLeaves_files htexts, ← horder]
  cases files with
  | nil =>
    have hnone : namedSources [] = .ok [] := namedSources_files []
    have hsorted : sortedFiles ([] : List (FileName × Value)) = [] := List.mergeSort_nil
    simp only [filesValue, List.map_nil, loadedLeaves, hnone, hsorted, List.isEmpty_nil, if_true,
      fileLeaves]
  | cons file files =>
    have hwanted : (if (((file :: files).map fun file =>
        (Value.text file.1, Value.text file.2)).isEmpty) then .ok .all
          else ExtensionFilter.ofValue extensions) = .ok filter := hextensions
    simp only [filesValue, loadedLeaves, namedSources_files, hwanted]
    rfl

/-- Where every leaf is a text, a step registers all of them and succeeds. -/
theorem Registers.of_texts {entries : List (Text × Text)} {store : FragmentStore}
    {step : Step FragmentStore Unit} (h : Registers (entries.map some) store step) :
    step.result = .ok () ∧ step.state = store.insertAll entries := by
  refine ⟨?_, by rw [h.state, Leaves.registered_map_some]⟩
  have hok := h.result
  rw [Leaves.allTexts_map_some] at hok
  cases hresult : step.result with
  | error fault => rw [hresult] at hok; cases hok
  | ok done => rfl

/-- Files are registered at different paths if their names without the extensions are different. -/
theorem nodup_paths {directory : Text} {files : List (Text × Text)}
    (hnames : ∀ file ∈ files, Path.Names file.1)
    (hdistinct : (files.map fun file => (Path.splitExtension file.1).1).Nodup) :
    ((files.map (fileEntry directory)).map fun entry => Path.collapse entry.1).Nodup := by
  rw [List.map_map]
  refine List.Nodup.map_on (fun file hfile other hother heq => ?_) (List.Nodup.of_map _ hdistinct)
  have hsame := Path.collapse_in_directory_inj (Path.names_splitExtension (hnames file hfile))
    (Path.names_splitExtension (hnames other hother)) heq
  exact List.inj_on_of_nodup_map hdistinct hfile hother hsame

/-! ## Loading -/

/-- **Loaded files are found under their own names,** whatever is under no such name stays, and loading
the files again changes nothing. -/
theorem found_by_name {files : List (Text × Text)} {directory : Text} {extensions : Value}
    {filter : ExtensionFilter} (hextensions : ExtensionFilter.ofValue extensions = .ok filter)
    (htexts : filter.OfTexts) (hdirectory : Path.Onward directory)
    (hnames : ∀ file ∈ files, Path.Names file.1)
    (hdistinct : ((files.filter fun file => filter.wants file.1).map fun file =>
      (Path.splitExtension file.1).1).Nodup) (store : FragmentStore) :
    let loaded := store.loadValue (filesValue files) (.text directory) extensions
    let again := loaded.state.loadValue (filesValue files) (.text directory) extensions
    (loaded.result = .ok () ∧
      (∀ file ∈ files, filter.wants file.1 = true →
        loaded.state.source? (resolve file.1 directory) = some file.2) ∧
      ∀ path, (∀ file ∈ files, filter.wants file.1 = true → resolve file.1 directory ≠ path) →
        loaded.state.source? path = store.source? path) ∧
    again.result = .ok () ∧ again.state = loaded.state := by
  obtain ⟨order, hperm, hleaves⟩ := exists_loadedLeaves hextensions htexts directory files
  have hwanted : ∀ file ∈ order, file ∈ files ∧ filter.wants file.1 = true := fun file hmem =>
    List.mem_filter.1 (hperm.mem_iff.1 hmem)
  have hkey : ∀ file ∈ order, Path.collapse (fileEntry directory file).1 = resolve file.1 directory :=
    fun file hmem => Path.collapse_eq_resolve (hnames file (hwanted file hmem).1) hdirectory
  have hstems : (order.map fun file => (Path.splitExtension file.1).1).Nodup :=
    (hperm.map _).nodup_iff.2 hdistinct
  have hfound : ∀ entry ∈ order.map (fileEntry directory),
      (store.insertAll (order.map (fileEntry directory))).InPlace entry := fun entry hmem =>
    source?_insertAll_of_mem (nodup_paths (fun file hfile => hnames file (hwanted file hfile).1) hstems)
      hmem store
  -- Both times the same texts are registered, the second time over themselves.
  have hload : ∀ store : FragmentStore,
      (store.loadValue (filesValue files) (.text directory) extensions).result = .ok () ∧
        (store.loadValue (filesValue files) (.text directory) extensions).state
          = store.insertAll (order.map (fileEntry directory)) := fun store =>
    Registers.of_texts
      (hleaves ▸ registers_loadValue store (filesValue files) (.text directory) extensions)
  dsimp only
  rw [(hload store).2, (hload _).2]
  refine ⟨⟨(hload store).1, fun file hfile hwants => ?_, fun path hpath => ?_⟩, (hload _).1,
    insertAll_of_inPlace hfound⟩
  · have hmem : file ∈ order := hperm.mem_iff.2 (List.mem_filter.2 ⟨hfile, hwants⟩)
    rw [← hkey file hmem]
    exact hfound _ (List.mem_map_of_mem hmem)
  · refine source?_insertAll_of_notMem (fun hmem => ?_) store
    rw [List.map_map, List.mem_map] at hmem
    obtain ⟨file, hfile, rfl⟩ := hmem
    exact hpath file (hwanted file hfile).1 (hwanted file hfile).2 (hkey file hfile).symm

/-- A store with a fragment. -/
def storeWithFragment : FragmentStore := empty.insert "lib/noise" "float n;"

/-- A file with dots and a directory in its name. -/
def dottedFile : Text × Text := ("light/.lambert.v2.glsl", "float l;")

/-- Files of which one has no wanted extension. -/
def dottedFiles : List (Text × Text) := [("readme.txt", "R"), dottedFile, ("b.d/c.glsl", "float c;")]

/-- A file with dots and a directory in its name is found, and the fragment beside it stays. -/
theorem found_by_name_of_dotted_file :
    ExtensionFilter.ofValue (.list [.text ".glsl"]) = .ok (.among [.text ".glsl"]) ∧
    Path.Onward "/lib//" ∧ (∀ file ∈ dottedFiles, Path.Names file.1) ∧ dottedFile ∈ dottedFiles ∧
    let loaded := storeWithFragment.loadValue (filesValue dottedFiles) (.text "/lib//")
      (.list [.text ".glsl"])
    loaded.state.source? (resolve dottedFile.1 "/lib//") = some dottedFile.2 ∧
      loaded.state.source? "lib/noise" = some "float n;" ∧
      resolve dottedFile.1 "/lib//" = "lib/light/.lambert.v2" := by
  have hextensions : ExtensionFilter.ofValue (.list [.text ".glsl"])
      = .ok (.among [.text ".glsl"]) := rfl
  have hdirectory : Path.Onward "/lib//" := by decide
  have hnames : ∀ file ∈ dottedFiles, Path.Names file.1 := by decide
  obtain ⟨⟨-, hfound, hkept⟩, -⟩ := found_by_name hextensions nofun hdirectory hnames (by decide)
    storeWithFragment
  refine ⟨hextensions, hdirectory, hnames, by decide, ?_, ?_, by decide⟩
  · exact hfound dottedFile (by decide) (by decide)
  · exact (hkept "lib/noise" (by decide)).trans (by decide)

end FragmentStore

end GlslCompose
