import LedSequencer.Proofs.Exchanges
import LedSequencer.Proofs.Ticking
import LedSequencer.Proofs.Trees

/-! # Pins in file trees

  The files of a pin keep the level that the pin was last driven to. Calls make no
  directory, so which calls go well is settled by the tree at the start, and no call comes
  near the files of another pin (`pin_files_follow_calls`).

  * **Paths**: the files of different pins are different files.
  * **One call**: the tree after it, and whether it goes well.
  * **Tries**: how often a direction is written.
  * **Calls in a row**: what stays the same, and what each file holds.
-/

namespace LedSequencer

open FileTree

/-! ### Paths -/

/-- A pin is known by its decimal number. -/
theorem Pin.text_injective {p q : Pin} (h : p.text = q.text) : p = q := by
  have hdigits : Nat.toDigits 10 p.number.toNat = Nat.toDigits 10 q.number.toNat := by
    unfold Pin.text at h
    rw [Nat.repr_eq_ofList_toDigits, Nat.repr_eq_ofList_toDigits] at h
    exact String.ofList_injective h
  have hsame := congrArg (Nat.ofDigitChars 10 · 0) hdigits
  simp only [Nat.ofDigitChars_ten_toDigits] at hsame
  exact Pin.eq_of_toNat hsame

namespace PinFiles

/-- The name of a pin's directory. -/
def pinName (pin : Pin) : String := s!"gpio{pin.text}"

/-- The file that a pin is driven with. -/
def valueFile (root : Path) (pin : Pin) : Path := (directory root pin).join "value"

/-- The file that a pin is set up with. -/
def directionFile (root : Path) (pin : Pin) : Path := (directory root pin).join "direction"

/-- The file that a pin's number is written to when it has no directory. -/
def exportFile (root : Path) : Path := root.join "export"

theorem pinName_eq (pin : Pin) : pinName pin = "gpio" ++ pin.text := rfl

theorem pinName_injective {p q : Pin} (h : pinName p = pinName q) : p = q := by
  rw [pinName_eq, pinName_eq] at h
  have hchars := congrArg String.toList h
  rw [String.toList_append, String.toList_append] at hchars
  exact Pin.text_injective (String.toList_inj.1 (List.append_cancel_left hchars))

/-- Other names do not start like that of a pin's directory. -/
theorem pinName_ne {other : String} (h : other.toList.head? ≠ some 'g') (pin : Pin) :
    pinName pin ≠ other := by
  rintro rfl
  apply h
  rw [pinName_eq, String.toList_append]
  rfl

theorem pinName_size_le (pin : Pin) : (pinName pin).utf8ByteSize ≤ 7 := by
  have hdigits : ∀ n < 256, (Nat.repr n).utf8ByteSize ≤ 3 := by decide +kernel
  have hsize : pin.text.utf8ByteSize ≤ 3 := hdigits pin.number.toNat pin.number.toNat_lt
  have hgpio : "gpio".utf8ByteSize = 4 := by decide
  rw [pinName_eq, String.utf8ByteSize_append]
  omega

theorem zero_notMem_pinName (pin : Pin) : '\x00' ∉ (pinName pin).toList := by
  have hdigits : ∀ n < 256, '\x00' ∉ (Nat.repr n).toList := by decide +kernel
  have hpin : '\x00' ∉ pin.text.toList := hdigits pin.number.toNat pin.number.toNat_lt
  have hgpio : '\x00' ∉ "gpio".toList := by decide
  rw [pinName_eq, String.toList_append, List.mem_append]
  exact not_or.2 ⟨hgpio, hpin⟩

theorem isPlainName_pinName (pin : Pin) : IsPlainName (pinName pin) := by
  refine ⟨pinName_ne (by decide) pin, pinName_ne (by decide) pin, pinName_ne (by decide) pin, ?_⟩
  exact Nat.le_trans (pinName_size_le pin) (by decide)

theorem isPlainName_value : IsPlainName "value" := by constructor <;> decide

theorem isPlainName_direction : IsPlainName "direction" := by constructor <;> decide

theorem isPlainName_export : IsPlainName "export" := by constructor <;> decide

/-- Below a root that is not too long, the path to a file of a pin can be followed. -/
theorem fault?_pin {root : Path} (hzero : '\x00' ∉ root.text.toList)
    (hroom : root.text.utf8ByteSize + 18 < Path.lengthLimit) (pin : Pin) {name : String}
    (h : IsPlainName name) (hname : '\x00' ∉ name.toList) (hsize : name.utf8ByteSize ≤ 9) :
    ((directory root pin).join name).fault? = none := by
  have hpin := pinName_size_le pin
  have hdirectory : directory root pin = root.join (pinName pin) := rfl
  rw [hdirectory]
  obtain ⟨_, hzero', hsize'⟩ := Path.fault?_join (isPlainName_pinName pin).ne_empty
    (zero_notMem_pinName pin) hzero (by omega)
  exact (Path.fault?_join h.ne_empty hname hzero' (by omega)).1

variable {t : FileTree} {root : Path} {names : List String} {name name' : String}

/-- Where a file of a pin is: below the place that the root leads to. -/
theorem site?_pin (h : IsPlainName name) {pin : Pin}
    (hsite : t.site? ((directory root pin).join name) = some names) :
    ∃ top, t.base root = .ok (.inside top) ∧
      t.node? (top ++ [pinName pin]) = some .directory ∧ names = top ++ [pinName pin, name] := by
  obtain ⟨_, above, habove, _, rfl⟩ := (site?_join_eq_some_iff h).1 hsite
  have hentered : (t.base root).bind (t.enter (pinName pin)) = .ok (.inside above) := by
    rw [← base_join (isPlainName_pinName pin)]
    exact habove
  cases hroot : t.base root with
  | error fault =>
    rw [hroot] at hentered
    cases hentered
  | ok here =>
    rw [hroot] at hentered
    obtain ⟨top, rfl, hnode, hplace⟩ := enter_eq_ok_iff.1 hentered
    cases hplace
    exact ⟨top, rfl, hnode, by simp⟩

/-- All files of pins are below the place that the root leads to. -/
theorem names_of_site?_pin (h : IsPlainName name) {top : List String}
    (htop : t.base root = .ok (.inside top)) {pin : Pin}
    (hsite : t.site? ((directory root pin).join name) = some names) :
    names = top ++ [pinName pin, name] := by
  obtain ⟨top', htop', _, hnames⟩ := site?_pin h hsite
  rw [htop] at htop'
  cases htop'
  exact hnames

/-- Files of pins that are in one place have the same name and belong to the same pin. -/
theorem eq_of_site?_pin (h : IsPlainName name) (h' : IsPlainName name') {p q : Pin}
    (hp : t.site? ((directory root p).join name) = some names)
    (hq : t.site? ((directory root q).join name') = some names) : p = q ∧ name = name' := by
  obtain ⟨top, htop, _, rfl⟩ := site?_pin h hp
  have htail := List.append_cancel_left (names_of_site?_pin h' htop hq)
  simp only [List.cons.injEq, and_true] at htail
  exact ⟨pinName_injective htail.1, htail.2⟩

theorem site?_export (hsite : t.site? (exportFile root) = some names) :
    ∃ top, t.base root = .ok (.inside top) ∧ names = top ++ ["export"] := by
  obtain ⟨_, top, htop, _, rfl⟩ := (site?_join_eq_some_iff isPlainName_export).1 hsite
  exact ⟨top, htop, rfl⟩

/-- No file of a pin is in the place of the export file. -/
theorem site?_export_ne_pin (h : IsPlainName name)
    (hexport : t.site? (exportFile root) = some names) (pin : Pin) :
    t.site? ((directory root pin).join name) ≠ some names := by
  intro hpin
  obtain ⟨top, htop, rfl⟩ := site?_export hexport
  have htail := List.append_cancel_left (names_of_site?_pin h htop hpin)
  simp at htail

/-! ### One call -/

/-- The answer to a call, and the tree after it. -/
def answer (root : Path) (t : FileTree) (call : Call) : Option Fault × FileTree :=
  (filing root call).run FileTree.reply t

/-- The tree after a call. -/
def after (root : Path) (t : FileTree) (call : Call) : FileTree := (answer root t call).2

theorem reply_write (t : FileTree) (p : Path) (text : String) :
    (FileTree.reply (.write p text) t).2 = t.written p text ∧
      ((FileTree.reply (.write p text) t).1 = none ↔ (t.site? p).isSome = true) := by
  cases hsite : t.site? p with
  | none =>
    obtain ⟨fault, hfault⟩ := write_of_site?_eq_none hsite text
    simp [FileTree.reply, written, hfault]
  | some names => simp [FileTree.reply, written, write_of_site? hsite]

theorem run_write (t : FileTree) (p : Path) (text : String) :
    (Filing.write p text).run FileTree.reply t = FileTree.reply (.write p text) t := rfl

/-- A write that fails leaves the tree as it is. -/
theorem reply_write_of_some {p : Path} {text : String} {fault : Fault}
    (h : (FileTree.reply (.write p text) t).1 = some fault) :
    FileTree.reply (.write p text) t = (some fault, t) := by
  simp only [FileTree.reply] at h ⊢
  cases hwrite : t.write p text with
  | ok t' =>
    rw [hwrite] at h
    cases h
  | error found =>
    rw [hwrite] at h
    cases h
    rfl

/-- Where nobody else changes the tree, another try comes to nothing else. -/
theorem run_writeRepeatedly (p : Path) (text : String) (more : Nat) (t : FileTree) :
    (writeRepeatedly p text more).run FileTree.reply t = FileTree.reply (.write p text) t := by
  induction more with
  | zero => rfl
  | succ more ih =>
    rw [writeRepeatedly, Dialogue.run_bind, run_write]
    cases hreply : (FileTree.reply (.write p text) t).1 with
    | none => exact Prod.ext hreply.symm rfl
    | some fault =>
      -- the next try meets the same tree
      have hsame := reply_write_of_some hreply
      rw [hsame] at ih ⊢
      exact ih

theorem answer_set (root : Path) (t : FileTree) (pin : Pin) (level : Level) :
    answer root t (.set pin level) =
      FileTree.reply (.write (valueFile root pin) level.digit) t := rfl

theorem answer_configure (root : Path) (t : FileTree) (pin : Pin) :
    answer root t (.configure pin) =
      if t.isPresent (directory root pin) = true then
        FileTree.reply (.write (directionFile root pin) "out") t
      else
        match FileTree.reply (.write (exportFile root) pin.text) t with
        | (some fault, t') => (some fault, t')
        | (none, t') => FileTree.reply (.write (directionFile root pin) "out") t' := by
  have hpresent : (Filing.isPresent (directory root pin)).run FileTree.reply t =
      (t.isPresent (directory root pin), t) := rfl
  unfold answer filing configure
  rw [Dialogue.run_bind, hpresent]
  cases t.isPresent (directory root pin) with
  | true =>
    simp only [if_true, Dialogue.pure_eq_done, Dialogue.bind_done]
    exact run_writeRepeatedly _ _ _ t
  | false =>
    simp only [Bool.false_eq_true, if_false]
    rw [Dialogue.run_bind, run_write]
    cases hreply : FileTree.reply (.write (root.join "export") pin.text) t with
    | mk fault t' =>
      have hexport : FileTree.reply (.write (exportFile root) pin.text) t = (fault, t') := hreply
      rw [hexport]
      cases fault with
      | some fault => rfl
      | none => exact run_writeRepeatedly _ _ _ t'

/-- A pin's files can be there only when its directory is. -/
theorem isPresent_of_site? (h : IsPlainName name) {pin : Pin}
    (hsite : (t.site? ((directory root pin).join name)).isSome = true) :
    t.isPresent (directory root pin) = true := by
  have hdirectory := ((site?_join_join_isSome_iff (isPlainName_pinName pin) h).1 hsite).1
  have hpresent : t.target (directory root pin) = .ok .directory := hdirectory
  unfold isPresent
  rw [hpresent]

/-- The tree after a pin has been driven. -/
theorem after_set (root : Path) (t : FileTree) (pin : Pin) (level : Level) :
    after root t (.set pin level) = t.written (valueFile root pin) level.digit := by
  unfold after
  rw [answer_set]
  exact (reply_write t (valueFile root pin) level.digit).1

/-- Driving a pin goes well when there is a place for its value. -/
theorem answer_set_eq_none_iff {pin : Pin} {level : Level} :
    (answer root t (.set pin level)).1 = none ↔ (t.site? (valueFile root pin)).isSome = true := by
  rw [answer_set]
  exact (reply_write t (valueFile root pin) level.digit).2

/-- Without a directory there is no place for the direction. -/
theorem site?_direction_of_absent {pin : Pin} (h : ¬ t.isPresent (directory root pin) = true) :
    t.site? (directionFile root pin) = none := by
  rw [← Option.not_isSome_iff_eq_none]
  intro hsome
  exact h (isPresent_of_site? isPlainName_direction hsome)

/-- Setting up a pin without a directory writes the number of the pin if that can be, and it fails
    either way. -/
theorem answer_configure_of_absent {pin : Pin} (h : ¬ t.isPresent (directory root pin) = true) :
    (answer root t (.configure pin)).1 ≠ none ∧
      (answer root t (.configure pin)).2 = t.written (exportFile root) pin.text := by
  obtain ⟨hwritten, _⟩ := reply_write t (exportFile root) pin.text
  rw [answer_configure, if_neg h]
  cases hreply : FileTree.reply (.write (exportFile root) pin.text) t with
  | mk fault t' =>
    rw [hreply] at hwritten
    have hwritten : t' = t.written (exportFile root) pin.text := hwritten
    subst hwritten
    cases fault with
    | some fault => exact ⟨Option.some_ne_none fault, rfl⟩
    | none =>
      -- the number makes no directory, so the direction still has no place
      have hsite :
          (t.written (exportFile root) pin.text).site? (directionFile root pin) = none := by
        rw [(sameDirectories_written t _ _).site?]
        exact site?_direction_of_absent h
      obtain ⟨htree, hfault⟩ :=
        reply_write (t.written (exportFile root) pin.text) (directionFile root pin) "out"
      rw [hsite] at hfault
      refine ⟨fun hnone => absurd (hfault.1 hnone) (by simp), ?_⟩
      exact htree.trans (written_of_site?_eq_none hsite "out")

/-- The tree after a pin has been set up: its direction has been written, or its number when it had
    no directory. -/
theorem after_configure (root : Path) (t : FileTree) (pin : Pin) :
    after root t (.configure pin) =
      if t.isPresent (directory root pin) = true then t.written (directionFile root pin) "out"
      else t.written (exportFile root) pin.text := by
  unfold after
  split
  · next hpresent =>
    rw [answer_configure, if_pos hpresent]
    exact (reply_write t (directionFile root pin) "out").1
  · next habsent => exact (answer_configure_of_absent habsent).2

/-- Setting a pin up goes well when there is a place for its direction. -/
theorem answer_configure_eq_none_iff {pin : Pin} :
    (answer root t (.configure pin)).1 = none ↔
      (t.site? (directionFile root pin)).isSome = true := by
  by_cases hpresent : t.isPresent (directory root pin) = true
  · rw [answer_configure, if_pos hpresent]
    exact (reply_write t (directionFile root pin) "out").2
  · rw [site?_direction_of_absent hpresent]
    simp [(answer_configure_of_absent hpresent).1]

theorem sameDirectories_after (root : Path) (t : FileTree) (call : Call) :
    SameDirectories t (after root t call) := by
  cases call with
  | set pin level =>
    rw [after_set]
    exact sameDirectories_written _ _ _
  | configure pin =>
    rw [after_configure]
    split
    · exact sameDirectories_written _ _ _
    · exact sameDirectories_written _ _ _

theorem node?_after_set (root : Path) (t : FileTree) (pin : Pin) (level : Level)
    (names : List String) : (after root t (.set pin level)).node? names =
      if t.site? (valueFile root pin) = some names then some (.file level.digit.toUTF8.toList)
      else t.node? names := by
  rw [after_set, node?_written]

theorem node?_after_configure (root : Path) (t : FileTree) (pin : Pin) (names : List String) :
    (after root t (.configure pin)).node? names =
      if t.site? (directionFile root pin) = some names then some (.file "out".toUTF8.toList)
      else if t.isPresent (directory root pin) = false ∧ t.site? (exportFile root) = some names then
        some (.file pin.text.toUTF8.toList)
      else t.node? names := by
  rw [after_configure]
  split
  · next hpresent =>
    rw [node?_written, hpresent]
    simp
  · next habsent =>
    rw [node?_written, site?_direction_of_absent habsent]
    simp [habsent]

/-- The files that a call may write. -/
def files (root : Path) : Call → List Path
  | .configure pin => [exportFile root, directionFile root pin]
  | .set pin _ => [valueFile root pin]

/-- A call leaves everything else as it is. -/
theorem node?_after_of_notMem {call : Call}
    (h : ∀ path ∈ files root call, t.site? path ≠ some names) :
    (after root t call).node? names = t.node? names := by
  cases call with
  | set pin level =>
    rw [node?_after_set, if_neg (h _ (List.mem_singleton.2 rfl))]
  | configure pin =>
    have hexport := h (exportFile root) (by simp [files])
    have hdirection := h (directionFile root pin) (by simp [files])
    rw [node?_after_configure, if_neg hdirection, if_neg (fun hboth => hexport hboth.2)]

/-- No file that a call may write is in the place of a pin's directory. -/
theorem site?_ne_pinName {call : Call} {top : List String} (htop : t.base root = .ok (.inside top))
    {path : Path} (hpath : path ∈ files root call) (pin : Pin) :
    t.site? path ≠ some (top ++ [pinName pin]) := by
  have hpins : ∀ name, IsPlainName name → ∀ q,
      t.site? ((directory root q).join name) ≠ some (top ++ [pinName pin]) := by
    intro name hname q hsite
    have htail := List.append_cancel_left (names_of_site?_pin hname htop hsite)
    simp at htail
  cases call with
  | set q level =>
    rw [List.mem_singleton.1 hpath]
    exact hpins _ isPlainName_value q
  | configure q =>
    rcases List.mem_cons.1 hpath with rfl | hrest
    · intro hsite
      obtain ⟨top', htop', hsame⟩ := site?_export hsite
      rw [htop] at htop'
      cases htop'
      have htail := List.append_cancel_left hsame
      exact pinName_ne (by decide) pin (List.head_eq_of_cons_eq htail)
    · rw [List.mem_singleton.1 hrest]
      exact hpins _ isPlainName_direction q

/-- No call makes the directory of a pin, or anything in its place. -/
theorem isPresent_after (root : Path) (t : FileTree) (call : Call) (pin : Pin) :
    (after root t call).isPresent (directory root pin) = t.isPresent (directory root pin) := by
  have hsame := sameDirectories_after root t call
  have hnode : ∀ top, t.base root = .ok (.inside top) →
      (after root t call).node? (top ++ [pinName pin]) = t.node? (top ++ [pinName pin]) := by
    intro top htop
    apply node?_after_of_notMem
    intro path hpath
    exact site?_ne_pinName htop hpath pin
  rw [Bool.eq_iff_iff]
  have hname := isPlainName_pinName pin
  show isPresent _ (root.join (pinName pin)) = true ↔ isPresent _ (root.join (pinName pin)) = true
  rw [isPresent_join_iff hname, isPresent_join_iff hname]
  simp only [hsame.base_eq_ok_iff]
  constructor
  · rintro ⟨hfault, top, htop, hfound⟩
    exact ⟨hfault, top, htop, hnode top htop ▸ hfound⟩
  · rintro ⟨hfault, top, htop, hfound⟩
    exact ⟨hfault, top, htop, (hnode top htop).symm ▸ hfound⟩

/-! ### Tries -/

/-- Whether a request is to write the given file. -/
def isWriteTo (path : Path) : FileRequest → Bool
  | .write written _ => written = path
  | .isPresent _ | .rest => false

/-- However the writes are answered, one is made at first and at most as many more as said. -/
theorem countP_asked_writeRepeatedly {σ : Type} (reply : (r : FileRequest) → σ → r.Reply × σ)
    (path : Path) (text : String) (more : Nat) (s : σ) :
    ((writeRepeatedly path text more).asked reply s).countP (isWriteTo path) ≤ more + 1 := by
  induction more generalizing s with
  | zero => exact List.countP_le_length
  | succ more ih =>
    rw [writeRepeatedly, Dialogue.asked_bind, List.countP_append]
    have hfirst : ((Filing.write path text).asked reply s).countP (isWriteTo path) ≤ 1 :=
      List.countP_le_length
    cases ((Filing.write path text).run reply s).1 with
    | none => exact Nat.le_trans hfirst (Nat.le_add_left 1 (more + 1))
    | some fault =>
      -- the rest before the next try is no write
      have hrest : ∀ s', ((Filing.rest >>= fun _ => writeRepeatedly path text more).asked reply
          s').countP (isWriteTo path) ≤ more + 1 := by
        intro s'
        rw [Dialogue.asked_bind, List.countP_append]
        have hnone : ((Filing.rest).asked reply s').countP (isWriteTo path) = 0 := rfl
        rw [hnone, Nat.zero_add]
        exact ih _
      have hmore := hrest ((Filing.write path text).run reply s).2
      simp only at hmore ⊢
      omega

/-- Setting a pin up writes its direction ten times at most. -/
theorem countP_asked_configure {σ : Type} (reply : (r : FileRequest) → σ → r.Reply × σ)
    (root : Path) (pin : Pin) (s : σ) :
    ((configure root pin).asked reply s).countP (isWriteTo (directionFile root pin)) ≤ tries := by
  have hother : exportFile root ≠ directionFile root pin := by
    intro hsame
    have hlast := congrArg (fun path : Path => path.parts.getLast?) hsame
    simp only [exportFile, directionFile, Path.getLast?_parts_join] at hlast
    exact absurd hlast (by decide)
  have hlook : ((Filing.isPresent (directory root pin)).asked reply s).countP
      (isWriteTo (directionFile root pin)) = 0 := rfl
  have hexport : ∀ s', ((Filing.write (exportFile root) pin.text).asked reply s').countP
      (isWriteTo (directionFile root pin)) = 0 := by
    intro s'
    have hwrite : isWriteTo (directionFile root pin) (.write (exportFile root) pin.text) = false :=
      decide_eq_false hother
    exact List.countP_cons_of_neg (by rw [hwrite]; exact Bool.false_ne_true)
  have htries : ∀ s', ((writeRepeatedly (directionFile root pin) "out" (tries - 1)).asked reply
      s').countP (isWriteTo (directionFile root pin)) ≤ tries :=
    countP_asked_writeRepeatedly reply (directionFile root pin) "out" (tries - 1)
  unfold configure
  rw [Dialogue.asked_bind, List.countP_append, hlook, Nat.zero_add]
  cases ((Filing.isPresent (directory root pin)).run reply s).1 with
  | true => exact htries _
  | false =>
    simp only [Bool.false_eq_true, if_false]
    rw [Dialogue.asked_bind, List.countP_append]
    refine Nat.le_trans (Nat.add_le_add_right (Nat.le_of_eq (hexport _)) _) ?_
    rw [Nat.zero_add]
    split
    · exact Nat.zero_le _
    · exact htries _

/-! ### Calls in a row -/

/-- The tree after calls in order. -/
def afterAll (root : Path) (t : FileTree) (calls : List Call) : FileTree :=
  calls.foldl (after root) t

theorem sameDirectories_afterAll (root : Path) (t : FileTree) (calls : List Call) :
    SameDirectories t (afterAll root t calls) := by
  induction calls generalizing t with
  | nil => exact .refl t
  | cons call rest ih => exact (sameDirectories_after root t call).trans (ih (after root t call))

/-- Calls leave everything as it is but the files that they may write. -/
theorem node?_afterAll_of_notMem {calls : List Call}
    (h : ∀ call ∈ calls, ∀ path ∈ files root call, t.site? path ≠ some names) :
    (afterAll root t calls).node? names = t.node? names := by
  induction calls generalizing t with
  | nil => rfl
  | cons call rest ih =>
    have hrest : (afterAll root (after root t call) rest).node? names =
        (after root t call).node? names := by
      apply ih
      intro later hlater path hpath
      rw [(sameDirectories_after root t call).site?]
      exact h later (List.mem_cons_of_mem call hlater) path hpath
    exact hrest.trans (node?_after_of_notMem (h call List.mem_cons_self))

/-- The driver after calls is over the tree after them. -/
theorem foldl_respond (root : Path) (t : FileTree) (calls : List Call) :
    calls.foldl (fun driver call => (PinDriver.respond call driver).driver)
      (Hardware.files root t) = .files root (afterAll root t calls) := by
  induction calls generalizing t with
  | nil => rfl
  | cons call rest ih => exact ih (after root t call)

/-- Every call is answered over a tree with the directories that there were at first. -/
theorem exists_tree_of_mem {calls : List Call} {x : Exchange Hardware}
    (h : x ∈ exchanges (Hardware.files root t) calls) :
    ∃ t', SameDirectories t t' ∧ x.response.fault = (answer root t' x.call).1 := by
  induction calls generalizing t with
  | nil => cases h
  | cons call rest ih =>
    rcases List.mem_cons.1 h with rfl | hrest
    · exact ⟨t, .refl t, rfl⟩
    · obtain ⟨t', hsame, hfault⟩ := ih (t := after root t call) hrest
      exact ⟨t', (sameDirectories_after root t call).trans hsame, hfault⟩

end PinFiles

/-- The level that a call drove a pin to, when it went well. -/
def Exchange.drove? {σ : Type} (pin : Pin) (x : Exchange σ) : Option Level :=
  match x.call, x.response.fault with
  | .set p level, none => if p = pin then some level else none
  | _, _ => none

theorem Exchange.drove?_eq_some_iff {σ : Type} {pin : Pin} {x : Exchange σ} {level : Level} :
    x.drove? pin = some level ↔ x.call = .set pin level ∧ x.response.fault = none := by
  unfold drove?
  split
  · next p found hcall hfault =>
    rw [hcall, hfault]
    by_cases hpin : p = pin
    · simp [hpin]
    · simp [hpin]
  · next hother =>
    constructor
    · intro h
      cases h
    · rintro ⟨hcall, hfault⟩
      exact absurd hfault (hother pin level hcall)

namespace PinFiles

variable {t : FileTree} {root : Path} {names : List String}

/-- **Run.** When each call leaves at a place what it writes there, or else what was there, then
    calls in a row leave there what was written last, or else what was there at first. The step may
    count on whatever the calls keep up. -/
theorem node?_afterAll {β : Type} (holds : FileTree → Prop) {wrote? : Exchange Hardware → Option β}
    {node : β → FileNode} (hkeeps : ∀ t call, holds t → holds (after root t call))
    (hstep : ∀ t call, holds t → (after root t call).node? names =
      ((wrote? ⟨call, PinDriver.respond call (Hardware.files root t)⟩).map node).or (t.node? names))
    (ht : holds t) (calls : List Call) :
    (afterAll root t calls).node? names =
      (((exchanges (Hardware.files root t) calls).filterMap wrote?).getLast?.map node).or
        (t.node? names) := by
  induction calls generalizing t with
  | nil => rfl
  | cons call rest ih =>
    have hrest := ih (hkeeps t call ht)
    have hcons : (exchanges (Hardware.files root t) (call :: rest)).filterMap wrote? =
        (wrote? ⟨call, PinDriver.respond call (Hardware.files root t)⟩).toList ++
          (exchanges (Hardware.files root (after root t call)) rest).filterMap wrote? := by
      rw [List.filterMap_eq_flatMap_toList, List.filterMap_eq_flatMap_toList]
      rfl
    rw [hstep t call ht] at hrest
    rw [hcons, List.getLast?_append, Option.map_or, Option.or_assoc]
    refine hrest.trans ?_
    -- the first call comes before what was there, and after the later ones
    congr 2
    cases wrote? ⟨call, PinDriver.respond call (Hardware.files root t)⟩ <;> rfl

/-- A call changes what the value file of a pin holds when it drives the pin. -/
theorem node?_value_after {pin : Pin} (hsite : t.site? (valueFile root pin) = some names)
    (call : Call) :
    (after root t call).node? names =
      ((Exchange.drove? pin ⟨call, PinDriver.respond call (Hardware.files root t)⟩).map
        fun level => .file level.digit.toUTF8.toList).or (t.node? names) := by
  cases call with
  | configure q =>
    -- neither the export file nor a direction is a value
    apply node?_after_of_notMem
    intro path hpath
    rcases List.mem_cons.1 hpath with rfl | hrest
    · intro hexport
      exact site?_export_ne_pin isPlainName_value hexport pin hsite
    · rw [List.mem_singleton.1 hrest]
      intro hdirection
      have hname := (eq_of_site?_pin isPlainName_direction isPlainName_value hdirection hsite).2
      exact absurd hname (by decide)
  | set q level =>
    rw [node?_after_set]
    by_cases hpin : q = pin
    · subst hpin
      have hfault : (PinDriver.respond (.set q level) (Hardware.files root t)).fault = none :=
        answer_set_eq_none_iff.2 (by rw [hsite]; rfl)
      rw [if_pos hsite]
      simp [Exchange.drove?, hfault]
    · have hother : t.site? (valueFile root q) ≠ some names := by
        intro hq
        exact hpin (eq_of_site?_pin isPlainName_value isPlainName_value hq hsite).1
      have hnone : Exchange.drove? pin
          ⟨.set q level, PinDriver.respond (.set q level) (Hardware.files root t)⟩ = none := by
        unfold Exchange.drove?
        simp only
        split
        · next heq _ =>
          cases heq
          exact if_neg hpin
        · rfl
      rw [if_neg hother, hnone]
      rfl

/-- A call changes what the direction file of a pin holds when it sets the pin up. -/
theorem node?_direction_after {pin : Pin} (hsite : t.site? (directionFile root pin) = some names)
    (call : Call) :
    (after root t call).node? names =
      ((if call = .configure pin then some pin else none).map
        fun _ => .file "out".toUTF8.toList).or (t.node? names) := by
  cases call with
  | configure q =>
    by_cases hpin : q = pin
    · subst hpin
      rw [node?_after_configure, if_pos hsite, if_pos rfl]
      rfl
    · rw [if_neg (fun h => hpin (Call.configure.inj h))]
      apply node?_after_of_notMem
      intro path hpath
      rcases List.mem_cons.1 hpath with rfl | hrest
      · intro hexport
        exact site?_export_ne_pin isPlainName_direction hexport pin hsite
      · rw [List.mem_singleton.1 hrest]
        intro hq
        exact hpin (eq_of_site?_pin isPlainName_direction isPlainName_direction hq hsite).1
  | set q level =>
    rw [if_neg Call.noConfusion]
    apply node?_after_of_notMem
    intro path hpath
    rw [List.mem_singleton.1 hpath]
    intro hvalue
    have hname := (eq_of_site?_pin isPlainName_value isPlainName_direction hvalue hsite).2
    exact absurd hname (by decide)

/-- The pin that a call exports: one that is set up without a directory. -/
def exported? (root : Path) (t : FileTree) : Call → Option Pin
  | .configure pin => if t.isPresent (directory root pin) then none else some pin
  | .set _ _ => none

theorem exported?_after (root : Path) (t : FileTree) (call : Call) :
    exported? root (after root t call) = exported? root t := by
  funext later
  cases later with
  | configure pin => simp only [exported?, isPresent_after]
  | set pin level => rfl

/-- A call changes what the export file holds when it exports a pin. -/
theorem node?_export_after (hsite : t.site? (exportFile root) = some names) (call : Call) :
    (after root t call).node? names =
      ((exported? root t call).map fun pin => .file pin.text.toUTF8.toList).or (t.node? names) := by
  cases call with
  | configure q =>
    have hdirection : t.site? (directionFile root q) ≠ some names :=
      site?_export_ne_pin isPlainName_direction hsite q
    rw [node?_after_configure, if_neg hdirection]
    cases hpresent : t.isPresent (directory root q) <;> simp [exported?, hpresent, hsite]
  | set q level =>
    apply node?_after_of_notMem
    intro path hpath
    rw [List.mem_singleton.1 hpath]
    exact site?_export_ne_pin isPlainName_value hsite q

variable {calls : List Call} {x : Exchange Hardware} {pin : Pin}

theorem fault_of_set (h : x ∈ exchanges (Hardware.files root t) calls) {level : Level}
    (hcall : x.call = .set pin level) :
    x.response.fault = none ↔ (t.site? (valueFile root pin)).isSome = true := by
  obtain ⟨t', hsame, hfault⟩ := exists_tree_of_mem h
  rw [hfault, hcall, answer_set_eq_none_iff, hsame.site?]

theorem fault_of_configure (h : x ∈ exchanges (Hardware.files root t) calls)
    (hcall : x.call = .configure pin) :
    x.response.fault = none ↔ (t.site? (directionFile root pin)).isSome = true := by
  obtain ⟨t', hsame, hfault⟩ := exists_tree_of_mem h
  rw [hfault, hcall, answer_configure_eq_none_iff, hsame.site?]

/-- The value file of a pin holds the level that the pin was driven to last. -/
theorem node?_value_afterAll (hsite : t.site? (valueFile root pin) = some names)
    (calls : List Call) :
    (afterAll root t calls).node? names =
      (((exchanges (Hardware.files root t) calls).filterMap (Exchange.drove? pin)).getLast?.map
        fun level => .file level.digit.toUTF8.toList).or (t.node? names) := by
  refine node?_afterAll (fun t => t.site? (valueFile root pin) = some names) ?_ ?_ hsite calls
  · intro t call ht
    rw [(sameDirectories_after root t call).site?]
    exact ht
  · intro t call ht
    exact node?_value_after ht call

/-- The direction file of a pin holds the direction once the pin has been set up. -/
theorem node?_direction_afterAll (hsite : t.site? (directionFile root pin) = some names)
    (calls : List Call) :
    (afterAll root t calls).node? names =
      (((exchanges (Hardware.files root t) calls).filterMap fun x =>
        if x.call = .configure pin then some pin else none).getLast?.map
        fun _ => .file "out".toUTF8.toList).or (t.node? names) := by
  refine node?_afterAll (fun t => t.site? (directionFile root pin) = some names) ?_ ?_ hsite calls
  · intro t call ht
    rw [(sameDirectories_after root t call).site?]
    exact ht
  · intro t call ht
    exact node?_direction_after ht call

/-- The level that a pin was driven to last is what is read from its value file. -/
theorem read_value_afterAll {level : Level}
    (hlast : ((exchanges (Hardware.files root t) calls).filterMap
      (Exchange.drove? pin)).getLast? = some level) :
    (afterAll root t calls).read (valueFile root pin) = .ok level.digit.toUTF8.toList := by
  obtain ⟨x, hx, hdrove⟩ := List.mem_filterMap.1 (List.mem_of_getLast? hlast)
  obtain ⟨hcall, hfault⟩ := Exchange.drove?_eq_some_iff.1 hdrove
  obtain ⟨names, hsite⟩ := Option.isSome_iff_exists.1 ((fault_of_set hx hcall).1 hfault)
  have hnode := node?_value_afterAll hsite calls
  rw [hlast] at hnode
  -- the path still leads to the place that it led to at the start
  exact read_of_site? (((sameDirectories_afterAll root t calls).site? _).trans hsite) hnode

/-- Once a pin has been set up, the direction is what is read from its direction file. -/
theorem read_direction_afterAll (hx : x ∈ exchanges (Hardware.files root t) calls)
    (hcall : x.call = .configure pin) (hfault : x.response.fault = none) :
    (afterAll root t calls).read (directionFile root pin) = .ok "out".toUTF8.toList := by
  obtain ⟨names, hsite⟩ := Option.isSome_iff_exists.1 ((fault_of_configure hx hcall).1 hfault)
  have hnode := node?_direction_afterAll hsite calls
  have hmem : pin ∈ (exchanges (Hardware.files root t) calls).filterMap fun x =>
      if x.call = .configure pin then some pin else none :=
    List.mem_filterMap.2 ⟨x, hx, if_pos hcall⟩
  obtain ⟨last, hlast⟩ :=
    Option.isSome_iff_exists.1 (List.getLast?_isSome.2 (List.ne_nil_of_mem hmem))
  rw [hlast] at hnode
  exact read_of_site? (((sameDirectories_afterAll root t calls).site? _).trans hsite) hnode

/-- The export file holds the number of the pin that was exported last. -/
theorem node?_export_afterAll (hsite : t.site? (exportFile root) = some names)
    (calls : List Call) :
    (afterAll root t calls).node? names =
      (((exchanges (Hardware.files root t) calls).filterMap fun x =>
        exported? root t x.call).getLast?.map
        fun pin => .file pin.text.toUTF8.toList).or (t.node? names) := by
  refine node?_afterAll (fun now => now.site? (exportFile root) = some names ∧
    exported? root now = exported? root t) ?_ ?_ ⟨hsite, rfl⟩ calls
  · rintro now call ⟨hnow, hexported⟩
    rw [(sameDirectories_after root now call).site?, exported?_after]
    exact ⟨hnow, hexported⟩
  · rintro now call ⟨hnow, hexported⟩
    -- what is exported was settled by the tree at the start
    rw [← hexported]
    exact node?_export_after hnow call

/-- **Pin files follow calls.** Calls to the files of pins below a root are answered one after the
    other, and nobody else changes the tree.

    No directory comes or goes, and no file changes but the export file and the direction and value
    files of pins that were called. Driving a pin goes well exactly when the directory of the pin is
    there, its value file is no directory and the path can be followed, and the value file holds the
    level that the pin was driven to last, whatever happened to other pins. Setting a pin up goes
    well exactly when the same is true of its direction file, which then holds the direction. The
    export file, if it can be written, holds the number of the last pin that was set up without
    anything in the place of its directory. However the writes are answered, a direction is tried
    ten times at most, and every error names the pin of its call. Below a root that is not too long,
    every path can be followed. -/
theorem pin_files_follow_calls (root : Path) (tree : FileTree) (calls : List Call) :
    let xs := exchanges (Hardware.files root tree) calls
    let final := afterAll root tree calls
    let isDirectory (path : Path) := tree.target path = .ok .directory
    (xs.map Exchange.call = calls ∧
      calls.foldl (fun driver call => (PinDriver.respond call driver).driver)
        (Hardware.files root tree) = .files root final) ∧
    ((∀ names, final.node? names = some .directory ↔ tree.node? names = some .directory) ∧
      ∀ names, final.node? names ≠ tree.node? names →
        ∃ call ∈ calls, ∃ path ∈ files root call, tree.site? path = some names) ∧
    (∀ x ∈ xs, ∀ pin level, x.call = .set pin level → (x.response.fault = none ↔
      isDirectory (directory root pin) ∧ ¬ isDirectory (valueFile root pin) ∧
        (valueFile root pin).fault? = none)) ∧
    (∀ pin, (∀ names, tree.site? (valueFile root pin) = some names → final.node? names =
        ((xs.filterMap (Exchange.drove? pin)).getLast?.map
          fun level => .file level.digit.toUTF8.toList).or (tree.node? names)) ∧
      ∀ level, (xs.filterMap (Exchange.drove? pin)).getLast? = some level →
        final.read (valueFile root pin) = .ok level.digit.toUTF8.toList) ∧
    (∀ x ∈ xs, ∀ pin, x.call = .configure pin →
      (x.response.fault = none ↔ isDirectory (directory root pin) ∧
        ¬ isDirectory (directionFile root pin) ∧ (directionFile root pin).fault? = none) ∧
      (x.response.fault = none → final.read (directionFile root pin) = .ok "out".toUTF8.toList)) ∧
    (∀ names, tree.site? (exportFile root) = some names → final.node? names =
      ((xs.filterMap fun x => exported? root tree x.call).getLast?.map
        fun pin => .file pin.text.toUTF8.toList).or (tree.node? names)) ∧
    (∀ (σ : Type) (reply : (r : FileRequest) → σ → r.Reply × σ) (s : σ) (pin : Pin),
      ((configure root pin).asked reply s).countP (isWriteTo (directionFile root pin)) ≤ 10) ∧
    ('\x00' ∉ root.text.toList → root.text.utf8ByteSize + 18 < Path.lengthLimit → ∀ pin,
      (valueFile root pin).fault? = none ∧ (directionFile root pin).fault? = none) ∧
    ∀ (w : World Hardware) (call : Call) (error : PinError),
      ((Wiring.call call).run World.request w).1 = some error → error.pin = call.pin := by
  intro xs final isDirectory
  have hplace (name : String) (h : IsPlainName name) (pin : Pin) :
      (tree.site? ((directory root pin).join name)).isSome = true ↔
        isDirectory (directory root pin) ∧ ¬ isDirectory ((directory root pin).join name) ∧
          ((directory root pin).join name).fault? = none :=
    site?_join_join_isSome_iff (isPlainName_pinName pin) h
  refine ⟨⟨map_call_exchanges _ calls, foldl_respond root tree calls⟩,
    ⟨sameDirectories_afterAll root tree calls, ?_⟩, ?_, ?_, ?_,
    fun names hsite => node?_export_afterAll hsite calls, ?_, ?_, ?_⟩
  · -- a node that no call may write stays as it is
    intro names hchanged
    by_contra hnone
    apply hchanged
    apply node?_afterAll_of_notMem
    intro call hcall path hpath hsite
    exact hnone ⟨call, hcall, path, hpath, hsite⟩
  · intro x hx pin level hcall
    exact (fault_of_set hx hcall).trans (hplace "value" isPlainName_value pin)
  · intro pin
    exact ⟨fun names hsite => node?_value_afterAll hsite calls, fun level => read_value_afterAll⟩
  · intro x hx pin hcall
    have hiff := (fault_of_configure hx hcall).trans (hplace "direction" isPlainName_direction pin)
    exact ⟨hiff, read_direction_afterAll hx hcall⟩
  · intro σ reply s pin
    exact countP_asked_configure reply root pin s
  · intro hzero hroom pin
    exact ⟨fault?_pin hzero hroom pin isPlainName_value (by decide) (by decide),
      fault?_pin hzero hroom pin isPlainName_direction (by decide) (by decide)⟩
  · intro w call error herror
    rw [World.run_call] at herror
    obtain ⟨fault, _, rfl⟩ := Option.map_eq_some_iff.1 herror
    rfl

/-- The value of pin 10 is a directory and pin 4 has none. Neither one changes the value of
    pin 1. -/
theorem pin_files_follow_calls_neighbours :
    let root : Path := ⟨["io"]⟩
    let tree : FileTree := ⟨[(["io"], .directory), (["io", "gpio1"], .directory),
      (["io", "gpio10"], .directory), (["io", "gpio10", "value"], .directory)]⟩
    let calls : List Call := [.set ⟨1⟩ .high, .set ⟨10⟩ .low, .configure ⟨4⟩, .set ⟨4⟩ .low]
    let xs := exchanges (Hardware.files root tree) calls
    (xs.map fun x => x.response.fault) = [none, some .isDirectory, some .notFound, some .notFound] ∧
      tree.target (directory root ⟨1⟩) = .ok .directory ∧ (valueFile root ⟨1⟩).fault? = none ∧
      (afterAll root tree calls).read (valueFile root ⟨1⟩) = .ok "1".toUTF8.toList ∧
      (afterAll root tree calls).node? ["io", "export"] = some (.file "4".toUTF8.toList) := by
  intro root tree calls xs
  obtain ⟨_, _, hset, hvalue, _, hexport, _, hpath, _⟩ := pin_files_follow_calls root tree calls
  have hfault : (valueFile root ⟨1⟩).fault? = none := (hpath (by decide) (by decide) ⟨1⟩).1
  have hanswers : (xs.map fun x => x.response.fault) =
      [none, some .isDirectory, some .notFound, some .notFound] := by decide +kernel
  have hfirst := hset
    ⟨.set ⟨1⟩ .high, PinDriver.respond (.set ⟨1⟩ .high) (Hardware.files root tree)⟩
    List.mem_cons_self ⟨1⟩ .high rfl
  have hfound := (hfirst.1 (by decide +kernel)).1
  have hread := (hvalue ⟨1⟩).2 .high (by decide +kernel)
  have hnumber := hexport ["io", "export"] (by decide +kernel)
  refine ⟨hanswers, hfound, hfault, hread, hnumber.trans ?_⟩
  decide +kernel

end PinFiles

end LedSequencer
