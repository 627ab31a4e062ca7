import LedSequencer.FileTree
import Mathlib.Data.List.Basic

/-! # Joined paths in file trees

  What a joined path leads to depends on the directory that the path before it leads to
  and on the one node of the name (`target_join`). Writing replaces the node at one place
  (`node?_written`), makes no directory and removes none, and so paths lead on to where
  they led before (`SameDirectories.site?`).

  * **Nodes**: one node is replaced and the others stay.
  * **Descending**: the directory that the parts of a path lead to.
  * **Joined paths**: one plain name after a path.
  * **Writing**: the place of a file, and what a write leaves there.
  * **Presence**: whether there is anything.
  * **Directories**: trees that differ in files alone.
-/

namespace LedSequencer

namespace FileTree

variable {t t' : FileTree} {names : List String}

/-! ### Nodes -/

theorem lookup_map_replace (nodes : List (List String × FileNode)) (names other : List String)
    (node : FileNode) :
    (nodes.map fun entry => if entry.1 = names then (names, node) else entry).lookup other =
      if other = names then (nodes.lookup names).map fun _ => node else nodes.lookup other := by
  induction nodes with
  | nil => split <;> rfl
  | cons entry rest ih =>
    obtain ⟨key, found⟩ := entry
    rw [List.map_cons]
    by_cases hkey : key = names
    · subst hkey
      rw [if_pos rfl, List.lookup_cons, ih, List.lookup_cons, List.lookup_cons]
      by_cases hother : other = key
      · simp [hother]
      · have hne : (other == key) = false := by simpa using hother
        simp [hother, hne]
    · rw [if_neg hkey, List.lookup_cons, ih, List.lookup_cons, List.lookup_cons]
      by_cases hother : other = names
      · have hne : (names == key) = false := by simpa using fun h : names = key => hkey h.symm
        simp [hother, hne]
      · simp [hother]

/-- A node is found where it was put, and any other one is still where it was. -/
theorem node?_put (hnames : names ≠ []) (node : FileNode) (other : List String) :
    (t.put names node).node? other = if other = names then some node else t.node? other := by
  unfold node? put
  by_cases hroot : other = []
  · rw [if_pos hroot, if_neg (fun h => hnames (h.symm.trans hroot)), if_pos hroot]
  rw [if_neg hroot, if_neg hroot]
  split
  · next hfound =>
    rw [lookup_map_replace]
    obtain ⟨found, hfound⟩ := Option.isSome_iff_exists.1 hfound
    rw [hfound]
    rfl
  · next hmissing =>
    rw [List.lookup_append]
    by_cases hother : other = names
    · subst hother
      rw [Option.not_isSome_iff_eq_none.1 hmissing, if_pos rfl]
      simp
    · have hne : (other == names) = false := by simpa using hother
      simp [hother, hne, List.lookup_cons]

/-! ### Descending -/

/-- The place that a name of a directory leads to. -/
def enter (t : FileTree) (name : String) : Place → Except Fault Place
  | .outside => .error .notFound
  | .inside directory =>
    match t.node? (directory ++ [name]) with
    | none => .error .notFound
    | some .directory => .ok (.inside (directory ++ [name]))
    | some (.file _) => .error .notDirectory

/-- What a name leads to that is the last of a path. -/
def arrive (t : FileTree) (name : String) : Place → Except Fault Target
  | .outside => .error .notFound
  | .inside directory =>
    match t.node? (directory ++ [name]) with
    | none => .ok (.vacant (directory ++ [name]))
    | some .directory => .ok .directory
    | some (.file bytes) => .ok (.file (directory ++ [name]) bytes)

/-- What a list of names leads to, when the directory above is there. -/
def targetAt (t : FileTree) (names : List String) : Target :=
  match t.node? names with
  | none => .vacant names
  | some .directory => .directory
  | some (.file bytes) => .file names bytes

theorem arrive_inside (t : FileTree) (name : String) (directory : List String) :
    t.arrive name (.inside directory) = .ok (t.targetAt (directory ++ [name])) := by
  simp only [arrive, targetAt]
  cases t.node? (directory ++ [name]) with
  | none => rfl
  | some node => cases node <;> rfl

/-- The directory that the parts of a path lead to. -/
def descend (t : FileTree) : Place → List String → Except Fault Place
  | here, [] => .ok here
  | here, part :: rest =>
    if part = "" || part = "." then t.descend here rest
    else if part = ".." then t.descend here.parent rest
    else if Path.nameLimit < part.utf8ByteSize then .error .nameTooLong
    else (t.enter part here).bind (t.descend · rest)

end FileTree

/-- Where the file is that a path leads to, or would be. -/
def Target.site? : Target → Option (List String)
  | .directory => none
  | .file names _ => some names
  | .vacant names => some names

namespace Path

/-- A joined path ends in the name. -/
theorem getLast?_parts_join (p : Path) (name : String) :
    (p.join name).parts.getLast? = some name := by
  unfold join
  split <;> exact List.getLast?_concat

variable {p : Path} {last : String}

/-- A path that ends in a name is joined by a slash. -/
theorem text_join (hlast : p.parts.getLast? = some last) (hne : last ≠ "") (name : String) :
    (p.join name).text = p.text ++ "/" ++ name := by
  have hparts : p.parts ≠ [] := by
    intro hnil
    rw [hnil] at hlast
    cases hlast
  unfold join
  rw [hlast, if_neg (fun h => hne (Option.some_inj.1 h))]
  unfold text
  rw [String.intercalate_append_of_ne_nil hparts (List.cons_ne_nil name []),
    String.intercalate_singleton]

/-- Joining adds a slash at most besides the name. -/
theorem text_join_or (p : Path) (name : String) :
    (p.join name).text = p.text ++ name ∨ (p.join name).text = p.text ++ "/" ++ name := by
  cases hlast : p.parts.getLast? with
  | none =>
    obtain ⟨parts⟩ := p
    obtain rfl : parts = [] := List.getLast?_eq_none_iff.1 hlast
    left
    simp [join, text]
  | some last =>
    by_cases hempty : last = ""
    · -- the path ends in a slash, or it is empty
      subst hempty
      left
      obtain ⟨front, hfront⟩ := List.getLast?_eq_some_iff.1 hlast
      unfold join text
      rw [if_pos hlast, hfront, List.dropLast_concat]
      by_cases hnil : front = []
      · subst hnil
        simp
      · rw [String.intercalate_append_of_ne_nil hnil (List.cons_ne_nil name []),
          String.intercalate_append_of_ne_nil hnil (List.cons_ne_nil "" []),
          String.intercalate_singleton, String.intercalate_singleton, String.append_empty]
    · exact .inr (text_join hlast hempty name)

/-- With room for the name, a joined path can be followed. -/
theorem fault?_join {name : String} (hne : name ≠ "") (hname : '\x00' ∉ name.toList)
    (hzero : '\x00' ∉ p.text.toList)
    (hroom : p.text.utf8ByteSize + name.utf8ByteSize + 1 < lengthLimit) :
    (p.join name).fault? = none ∧ '\x00' ∉ (p.join name).text.toList ∧
      (p.join name).text.utf8ByteSize ≤ p.text.utf8ByteSize + name.utf8ByteSize + 1 := by
  have hslash : "/".utf8ByteSize = 1 := by decide
  have hzero' : '\x00' ∉ (p.join name).text.toList := by
    rcases text_join_or p name with htext | htext <;>
    · rw [htext]
      simp [hzero, hname]
  have hsize : (p.join name).text.utf8ByteSize ≤
      p.text.utf8ByteSize + name.utf8ByteSize + 1 := by
    rcases text_join_or p name with htext | htext
    · rw [htext, String.utf8ByteSize_append]
      omega
    · rw [htext, String.utf8ByteSize_append, String.utf8ByteSize_append]
      omega
  have hparts : (p.join name).parts ≠ [""] := by
    intro hempty
    have hlast := getLast?_parts_join p name
    rw [hempty] at hlast
    exact hne (Option.some_inj.1 hlast).symm
  refine ⟨?_, hzero', hsize⟩
  unfold fault?
  rw [if_neg (by simpa using hzero'), if_neg (by omega), if_neg hparts]

/-- A path can be followed when one below it can. -/
theorem fault?_of_join (hlast : p.parts.getLast? = some last) (hne : last ≠ "") {name : String}
    (h : (p.join name).fault? = none) : p.fault? = none := by
  have hparts : p.parts ≠ [""] := by
    intro hempty
    rw [hempty] at hlast
    cases hlast
    exact hne rfl
  unfold fault? at h ⊢
  rw [text_join hlast hne] at h
  split at h
  · cases h
  next hzero =>
    split at h
    · cases h
    next hlength =>
      rw [String.toList_append, String.toList_append] at hzero
      rw [String.utf8ByteSize_append, String.utf8ByteSize_append] at hlength
      rw [if_neg (by simp_all), if_neg (by omega), if_neg hparts]

end Path

/-- A name that leads one step down: it is not empty or too long, and it has no meaning of its
    own. -/
structure IsPlainName (name : String) : Prop where
  /-- The name is not left out. -/
  ne_empty : name ≠ ""
  /-- The name does not stand for the directory itself. -/
  ne_dot : name ≠ "."
  /-- The name does not lead up. -/
  ne_dots : name ≠ ".."
  /-- The name is not too long. -/
  size_le : name.utf8ByteSize ≤ Path.nameLimit

namespace FileTree

variable {t t' : FileTree} {names : List String} {name : String}

theorem descend_append (t : FileTree) (here : Place) (first second : List String) :
    t.descend here (first ++ second) = (t.descend here first).bind (t.descend · second) := by
  induction first generalizing here with
  | nil => rfl
  | cons part rest ih =>
    -- the cases are the kinds of parts: nothing or a dot, two dots, too long, a name
    rw [List.cons_append, descend, descend]
    split
    · exact ih here
    split
    · exact ih here.parent
    split
    · rfl
    cases t.enter part here with
    | error fault => rfl
    | ok next => exact ih next

theorem descend_name (h : IsPlainName name) (here : Place) :
    t.descend here [name] = t.enter name here := by
  rw [descend, if_neg (by simp [h.ne_empty, h.ne_dot]), if_neg h.ne_dots,
    if_neg (Nat.not_lt.2 h.size_le)]
  cases t.enter name here <;> rfl

/-- The first part of a path is looked at, and then the others. -/
theorem follow_cons (t : FileTree) (here : Place) (part : String) (rest : List String) :
    t.follow here (part :: rest) =
      if part = "" || part = "." then t.follow here rest
      else if part = ".." then t.follow here.parent rest
      else if Path.nameLimit < part.utf8ByteSize then .error .nameTooLong
      else if rest = [] then t.arrive part here
      else (t.enter part here).bind (t.follow · rest) := by
  rw [follow.eq_def]
  simp only
  split
  · rfl
  split
  · rfl
  split
  · rfl
  -- a name: what is there and whether it is the last part settle the rest
  cases here with
  | outside => cases rest <;> rfl
  | inside directory =>
    simp only [arrive, enter]
    cases t.node? (directory ++ [part]) with
    | none => cases rest <;> rfl
    | some node => cases node <;> cases rest <;> rfl

/-- What a path leads to, from the directory that its parts before the last lead to. -/
theorem follow_append (h : IsPlainName name) (here : Place) (parts : List String) :
    t.follow here (parts ++ [name]) = (t.descend here parts).bind (t.arrive name) := by
  induction parts generalizing here with
  | nil =>
    rw [List.nil_append, follow_cons, if_neg (by simp [h.ne_empty, h.ne_dot]), if_neg h.ne_dots,
      if_neg (Nat.not_lt.2 h.size_le), if_pos rfl]
    rfl
  | cons part rest ih =>
    rw [List.cons_append, follow_cons, descend]
    split
    · exact ih here
    split
    · exact ih here.parent
    split
    · rfl
    -- there always is a part after this one
    rw [if_neg (List.append_ne_nil_of_right_ne_nil rest (List.cons_ne_nil name []))]
    cases t.enter part here with
    | error fault => rfl
    | ok next => exact ih next

/-- A name leads to a directory exactly when it can be entered. -/
theorem arrive_eq_directory_iff (t : FileTree) (name : String) (here : Place) :
    t.arrive name here = .ok .directory ↔ ∃ place, t.enter name here = .ok place := by
  cases here with
  | outside => simp [arrive, enter]
  | inside directory =>
    unfold arrive enter
    simp only
    split <;> simp

/-- A path that leads to a directory has led there by all its parts. -/
theorem follow_eq_directory_iff (t : FileTree) (here : Place) (parts : List String) :
    t.follow here parts = .ok .directory ↔ ∃ place, t.descend here parts = .ok place := by
  induction parts generalizing here with
  | nil => simp [follow, descend]
  | cons part rest ih =>
    rw [follow_cons, descend]
    split
    · exact ih here
    split
    · exact ih here.parent
    split
    · simp
    split
    · next hrest =>
      subst hrest
      rw [arrive_eq_directory_iff]
      cases t.enter part here <;> simp [Except.bind, descend]
    · cases t.enter part here with
      | error fault => simp [Except.bind]
      | ok next => exact ih next

/-! ### Joined paths -/

/-- Where a path starts: in the tree, or at the root of the system. -/
def start (p : Path) : Place := if p.isAbsolute then .outside else .inside []

/-- The place that a path leads to as a directory. -/
def base (t : FileTree) (p : Path) : Except Fault Place := t.descend (start p) p.parts

/-- Of two parts or more, the first one tells whether a path is absolute. -/
theorem isAbsolute_cons (part : String) {rest : List String} (h : rest ≠ []) :
    Path.isAbsolute ⟨part :: rest⟩ = decide (part = "") := by
  obtain ⟨next, more, rfl⟩ := List.exists_cons_of_ne_nil h
  unfold Path.isAbsolute
  split
  · next heq =>
    cases heq
    rfl
  · next hne =>
    have hpart : part ≠ "" := by
      rintro rfl
      exact hne next more rfl
    simp [hpart]

/-- A path to a name starts where the path before it does. -/
theorem start_join (p : Path) (h : name ≠ "") : start (p.join name) = start p := by
  have habsolute : (p.join name).isAbsolute = p.isAbsolute := by
    obtain ⟨parts⟩ := p
    match parts with
    | [] => simp [Path.join, Path.isAbsolute]
    | [part] =>
      by_cases hpart : part = ""
      · simp [Path.join, Path.isAbsolute, hpart]
      · simp [Path.join, Path.isAbsolute, hpart]
    | part :: next :: rest =>
      -- at least the first part stays in front of the name
      rw [isAbsolute_cons part (List.cons_ne_nil next rest)]
      unfold Path.join
      split
      · rw [List.dropLast_cons_cons, List.cons_append]
        exact isAbsolute_cons part (by simp)
      · rw [List.cons_append]
        exact isAbsolute_cons part (by simp)
  unfold start
  rw [habsolute]

theorem base_join (h : IsPlainName name) (t : FileTree) (p : Path) :
    t.base (p.join name) = (t.base p).bind (t.enter name) := by
  unfold base
  rw [start_join p h.ne_empty]
  unfold Path.join
  split
  · next hlast =>
    -- the empty part at the end leads nowhere
    obtain ⟨front, hfront⟩ := List.getLast?_eq_some_iff.1 hlast
    rw [hfront, List.dropLast_concat, descend_append, descend_append]
    cases t.descend (start p) front with
    | error fault => rfl
    | ok place => exact descend_name h place
  · rw [descend_append]
    congr 1
    funext place
    exact descend_name h place

theorem target_join (h : IsPlainName name) (t : FileTree) (p : Path) :
    t.target (p.join name) =
      match (p.join name).fault? with
      | some fault => .error fault
      | none => (t.base p).bind (t.arrive name) := by
  have hfollow : t.follow (start (p.join name)) (p.join name).parts =
      (t.base p).bind (t.arrive name) := by
    rw [start_join p h.ne_empty]
    unfold base Path.join
    split
    · next hlast =>
      obtain ⟨front, hfront⟩ := List.getLast?_eq_some_iff.1 hlast
      rw [hfront, List.dropLast_concat, follow_append h, descend_append]
      cases t.descend (start p) front <;> rfl
    · exact follow_append h (start p) p.parts
  unfold target
  rw [← hfollow]
  rfl

/-- A joined path leads to what its name stands for below the path before it, if that leads to a
    directory of the tree. -/
theorem target_join_eq_ok_iff (h : IsPlainName name) {t : FileTree} {p : Path} {target : Target} :
    t.target (p.join name) = .ok target ↔ (p.join name).fault? = none ∧
      ∃ above, t.base p = .ok (.inside above) ∧ t.targetAt (above ++ [name]) = target := by
  rw [target_join h]
  cases (p.join name).fault? with
  | some fault => simp
  | none =>
    cases t.base p with
    | error fault => simp [Except.bind]
    | ok place =>
      cases place with
      | outside => simp [Except.bind, arrive]
      | inside above => simp [Except.bind, arrive_inside]

theorem target_eq_directory_iff {t : FileTree} {p : Path} :
    t.target p = .ok .directory ↔ p.fault? = none ∧ ∃ place, t.base p = .ok place := by
  unfold target
  cases hfault : p.fault? with
  | some fault => simp
  | none => simpa [base, start] using follow_eq_directory_iff t (start p) p.parts

/-! ### Writing -/

/-- Where the file at a path is, or would be. -/
def site? (t : FileTree) (p : Path) : Option (List String) :=
  match t.target p with
  | .ok (.file names _) => some names
  | .ok (.vacant names) => some names
  | _ => none

theorem site?_eq_some_iff {p : Path} :
    t.site? p = some names ↔ ∃ target, t.target p = .ok target ∧ target.site? = some names := by
  unfold FileTree.site?
  cases t.target p with
  | error fault => simp
  | ok target => cases target <;> simp [Target.site?]

theorem site?_targetAt_eq_some_iff {place : List String} :
    (t.targetAt place).site? = some names ↔
      t.node? place ≠ some .directory ∧ names = place := by
  unfold targetAt
  cases hnode : t.node? place with
  | none => simp [Target.site?, eq_comm]
  | some node => cases node <;> simp [Target.site?, eq_comm]

/-- The tree after an attempt to write a file. -/
def written (t : FileTree) (p : Path) (text : String) : FileTree :=
  match t.write p text with
  | .ok t' => t'
  | .error _ => t

/-- What a path leads to is in the tree. -/
def Found (t : FileTree) : Target → Prop
  | .directory => True
  | .file names bytes => names ≠ [] ∧ t.node? names = some (.file bytes)
  | .vacant names => names ≠ [] ∧ t.node? names = none

theorem found_of_arrive {here : Place} {target : Target} (h : t.arrive name here = .ok target) :
    t.Found target := by
  cases here with
  | outside => cases h
  | inside directory =>
    unfold arrive at h
    simp only at h
    split at h <;> cases h
    · next hnode => exact ⟨by simp, hnode⟩
    · trivial
    · next hnode => exact ⟨by simp, hnode⟩

theorem found_of_follow {here : Place} {parts : List String} {target : Target}
    (h : t.follow here parts = .ok target) : t.Found target := by
  induction parts generalizing here with
  | nil =>
    cases h
    trivial
  | cons part rest ih =>
    rw [follow_cons] at h
    split at h
    · exact ih h
    split at h
    · exact ih h
    split at h
    · cases h
    split at h
    · exact found_of_arrive h
    · cases hnext : t.enter part here with
      | error fault =>
        rw [hnext] at h
        cases h
      | ok next =>
        rw [hnext] at h
        exact ih h

theorem found_of_target {p : Path} {target : Target} (h : t.target p = .ok target) :
    t.Found target := by
  unfold FileTree.target at h
  split at h
  · cases h
  · exact found_of_follow h

/-- There is no directory where a file is or would be. -/
theorem node?_of_site? {p : Path} (h : t.site? p = some names) :
    names ≠ [] ∧ t.node? names ≠ some .directory := by
  unfold site? at h
  split at h <;> cases h
  · next htarget =>
    obtain ⟨hne, hnode⟩ := found_of_target htarget
    exact ⟨hne, by simp [hnode]⟩
  · next htarget =>
    obtain ⟨hne, hnode⟩ := found_of_target htarget
    exact ⟨hne, by simp [hnode]⟩

theorem write_of_site? {p : Path} (h : t.site? p = some names) (text : String) :
    t.write p text = .ok (t.put names (.file text.toUTF8.toList)) := by
  unfold site? at h
  unfold write
  split at h <;> cases h
  · next htarget => rw [htarget]
  · next htarget => rw [htarget]

theorem write_of_site?_eq_none {p : Path} (h : t.site? p = none) (text : String) :
    ∃ fault, t.write p text = .error fault := by
  unfold site? at h
  unfold write
  cases htarget : t.target p with
  | error fault => exact ⟨fault, rfl⟩
  | ok target =>
    rw [htarget] at h
    cases target with
    | directory => exact ⟨.isDirectory, rfl⟩
    | file | vacant => cases h

/-- Without a place for the file, an attempt to write it leaves the tree as it is. -/
theorem written_of_site?_eq_none {p : Path} (h : t.site? p = none) (text : String) :
    t.written p text = t := by
  obtain ⟨fault, hfault⟩ := write_of_site?_eq_none h text
  unfold written
  rw [hfault]

/-- A write that goes well leaves its text in the file, and nothing else changes. -/
theorem node?_written (t : FileTree) (p : Path) (text : String) (names : List String) :
    (t.written p text).node? names =
      if t.site? p = some names then some (.file text.toUTF8.toList) else t.node? names := by
  cases hsite : t.site? p with
  | none => simp [written_of_site?_eq_none hsite]
  | some place =>
    unfold written
    rw [write_of_site? hsite]
    show (t.put place _).node? names = _
    -- the place of a file is never the top of the tree
    rw [node?_put (node?_of_site? hsite).1]
    by_cases hsame : names = place
    · simp [hsame]
    · have hother : place ≠ names := fun h => hsame h.symm
      simp [hsame, hother]

theorem site?_join_eq_some_iff (h : IsPlainName name) {t : FileTree} {p : Path} :
    t.site? (p.join name) = some names ↔ (p.join name).fault? = none ∧
      ∃ above, t.base p = .ok (.inside above) ∧ t.node? (above ++ [name]) ≠ some .directory ∧
        names = above ++ [name] := by
  simp only [site?_eq_some_iff, target_join_eq_ok_iff h, and_assoc, exists_and_left,
    exists_exists_and_eq_and, site?_targetAt_eq_some_iff]

theorem enter_eq_ok_iff {here place : Place} : t.enter name here = .ok place ↔
    ∃ above, here = .inside above ∧ t.node? (above ++ [name]) = some .directory ∧
      place = .inside (above ++ [name]) := by
  cases here with
  | outside => simp [enter]
  | inside above =>
    cases hnode : t.node? (above ++ [name]) with
    | none => simp [enter, hnode]
    | some node => cases node <;> simp [enter, hnode, eq_comm]

/-- A file below a directory that has a name of its own can be written when the directory is there,
    no directory is in its place and its path can be followed. -/
theorem site?_join_join_isSome_iff {above : String} (habove : IsPlainName above)
    (h : IsPlainName name) {t : FileTree} {p : Path} :
    (t.site? ((p.join above).join name)).isSome = true ↔
      t.target (p.join above) = .ok .directory ∧
      t.target ((p.join above).join name) ≠ .ok .directory ∧
      ((p.join above).join name).fault? = none := by
  rw [target_eq_directory_iff]
  constructor
  · intro hsome
    obtain ⟨names, hsite⟩ := Option.isSome_iff_exists.1 hsome
    obtain ⟨hfault, top, htop, _⟩ := (site?_join_eq_some_iff h).1 hsite
    refine ⟨⟨?_, .inside top, htop⟩, ?_, hfault⟩
    · exact Path.fault?_of_join (Path.getLast?_parts_join p above) habove.ne_empty hfault
    · intro hdirectory
      unfold site? at hsite
      rw [hdirectory] at hsite
      cases hsite
  · rintro ⟨⟨_, place, hplace⟩, hnone, hfault⟩
    -- the directory has been entered, so it is in the tree
    have hentered := base_join habove t p
    rw [hplace] at hentered
    cases hbase : t.base p with
    | error fault =>
      rw [hbase] at hentered
      cases hentered
    | ok here =>
      rw [hbase] at hentered
      obtain ⟨top, _, _, rfl⟩ := enter_eq_ok_iff.1 hentered.symm
      rw [Option.isSome_iff_exists]
      refine ⟨_, (site?_join_eq_some_iff h).2 ⟨hfault, _, hplace, ?_, rfl⟩⟩
      intro hnode
      apply hnone
      rw [target_join_eq_ok_iff h]
      exact ⟨hfault, _, hplace, by simp only [targetAt, hnode]⟩

/-- What is read is what is in the file. -/
theorem read_of_site? {p : Path} (h : t.site? p = some names) {bytes : List UInt8}
    (hnode : t.node? names = some (.file bytes)) : t.read p = .ok bytes := by
  unfold site? at h
  unfold read
  split at h <;> cases h
  · next found htarget =>
    have hsame := (found_of_target htarget).2
    rw [hnode] at hsame
    cases hsame
    rw [htarget]
  · next htarget =>
    -- a vacant place holds nothing
    have hsame := (found_of_target htarget).2
    rw [hnode] at hsame
    cases hsame

/-! ### Presence -/

theorem isPresent_iff {p : Path} : t.isPresent p = true ↔
    ∃ target, t.target p = .ok target ∧ ∀ names, target ≠ .vacant names := by
  unfold isPresent
  cases t.target p with
  | error fault => simp
  | ok target => cases target <;> simp

theorem targetAt_ne_vacant_iff {place : List String} :
    (∀ names, t.targetAt place ≠ .vacant names) ↔ t.node? place ≠ none := by
  unfold targetAt
  cases t.node? place with
  | none => simp
  | some node => cases node <;> simp

/-- Whether there is a file or a directory at a joined path depends on the node of the name. -/
theorem isPresent_join_iff (h : IsPlainName name) {t : FileTree} {p : Path} :
    t.isPresent (p.join name) = true ↔ (p.join name).fault? = none ∧
      ∃ above, t.base p = .ok (.inside above) ∧ t.node? (above ++ [name]) ≠ none := by
  simp only [isPresent_iff, target_join_eq_ok_iff h, and_assoc, exists_and_left,
    exists_exists_and_eq_and, targetAt_ne_vacant_iff]

/-! ### Directories -/

/-- Trees with the same directories. -/
def SameDirectories (t t' : FileTree) : Prop :=
  ∀ names, t'.node? names = some .directory ↔ t.node? names = some .directory

theorem SameDirectories.refl (t : FileTree) : SameDirectories t t := fun _ => Iff.rfl

theorem SameDirectories.trans {t'' : FileTree} (h : SameDirectories t t')
    (h' : SameDirectories t' t'') : SameDirectories t t'' :=
  fun names => (h' names).trans (h names)

/-- Writing makes no directory and removes none. -/
theorem sameDirectories_written (t : FileTree) (p : Path) (text : String) :
    SameDirectories t (t.written p text) := by
  intro names
  rw [node?_written]
  split
  · next hsite =>
    -- the file that is written was no directory, and it is none now
    have hnode := (node?_of_site? hsite).2
    simp [hnode]
  · rfl

/-- What a path leads to, but for what is in a file: nothing, a directory, or the place of a
    file. -/
def outline : Except Fault Target → Option (Option (List String))
  | .error _ => none
  | .ok .directory => some none
  | .ok (.file names _) => some (some names)
  | .ok (.vacant names) => some (some names)

theorem outline_arrive (t : FileTree) (name : String) (directory : List String) :
    outline (t.arrive name (.inside directory)) =
      if t.node? (directory ++ [name]) = some .directory then some none
      else some (some (directory ++ [name])) := by
  cases hnode : t.node? (directory ++ [name]) with
  | none => simp [arrive, hnode, outline]
  | some node => cases node <;> simp [arrive, hnode, outline]

theorem toOption_enter (t : FileTree) (name : String) (directory : List String) :
    (t.enter name (.inside directory)).toOption =
      if t.node? (directory ++ [name]) = some .directory then
        some (.inside (directory ++ [name]))
      else none := by
  cases hnode : t.node? (directory ++ [name]) with
  | none => simp [enter, hnode, Except.toOption]
  | some node => cases node <;> simp [enter, hnode, Except.toOption]

namespace SameDirectories

theorem outline_arrive (h : SameDirectories t t') (name : String) (here : Place) :
    outline (t'.arrive name here) = outline (t.arrive name here) := by
  cases here with
  | outside => rfl
  | inside directory =>
    rw [FileTree.outline_arrive, FileTree.outline_arrive]
    simp only [h (directory ++ [name])]

theorem toOption_enter (h : SameDirectories t t') (name : String) (here : Place) :
    (t'.enter name here).toOption = (t.enter name here).toOption := by
  cases here with
  | outside => rfl
  | inside directory =>
    rw [FileTree.toOption_enter, FileTree.toOption_enter]
    simp only [h (directory ++ [name])]

/-- A name is entered in both trees, with the same result, or in neither. -/
theorem enter_cases (h : SameDirectories t t') (name : String) (here : Place) :
    (∃ next, t.enter name here = .ok next ∧ t'.enter name here = .ok next) ∨
      ∃ fault fault', t.enter name here = .error fault ∧ t'.enter name here = .error fault' := by
  have hsame := h.toOption_enter name here
  cases hfirst : t.enter name here with
  | error fault =>
    cases hsecond : t'.enter name here with
    | error fault' => exact .inr ⟨fault, fault', rfl, rfl⟩
    | ok next =>
      rw [hfirst, hsecond] at hsame
      cases hsame
  | ok next =>
    cases hsecond : t'.enter name here with
    | error fault =>
      rw [hfirst, hsecond] at hsame
      cases hsame
    | ok next' =>
      rw [hfirst, hsecond] at hsame
      cases hsame
      exact .inl ⟨next, rfl, rfl⟩

/-- Paths lead to the same directories and places. -/
theorem outline_follow (h : SameDirectories t t') (here : Place) (parts : List String) :
    outline (t'.follow here parts) = outline (t.follow here parts) := by
  induction parts generalizing here with
  | nil => rfl
  | cons part rest ih =>
    rw [follow_cons, follow_cons]
    split
    · exact ih here
    split
    · exact ih here.parent
    split
    · rfl
    split
    · exact h.outline_arrive part here
    · -- the faults may differ, but an outline does not tell them apart
      rcases h.enter_cases part here with ⟨next, hfirst, hsecond⟩ | ⟨_, _, hfirst, hsecond⟩
      · rw [hfirst, hsecond]
        exact ih next
      · rw [hfirst, hsecond]
        rfl

theorem outline_target (h : SameDirectories t t') (p : Path) :
    outline (t'.target p) = outline (t.target p) := by
  unfold target
  split
  · rfl
  · exact h.outline_follow _ p.parts

end SameDirectories

theorem site?_eq_join (t : FileTree) (p : Path) : t.site? p = (outline (t.target p)).join := by
  unfold site?
  cases t.target p with
  | error fault => rfl
  | ok target => cases target <;> rfl

namespace SameDirectories

theorem site? (h : SameDirectories t t') (p : Path) : t'.site? p = t.site? p := by
  rw [site?_eq_join, site?_eq_join, h.outline_target]

theorem base_eq_ok_iff (h : SameDirectories t t') (p : Path) (place : Place) :
    t'.base p = .ok place ↔ t.base p = .ok place := by
  unfold base
  generalize start p = here
  induction p.parts generalizing here with
  | nil => rfl
  | cons part rest ih =>
    rw [descend, descend]
    split
    · exact ih here
    split
    · exact ih here.parent
    split
    · rfl
    rcases h.enter_cases part here with ⟨next, hfirst, hsecond⟩ | ⟨_, _, hfirst, hsecond⟩
    · rw [hfirst, hsecond]
      exact ih next
    · rw [hfirst, hsecond]
      simp [Except.bind]

end SameDirectories

end FileTree

end LedSequencer
