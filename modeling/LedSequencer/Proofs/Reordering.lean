import LedSequencer.Proofs.Composition
import LedSequencer.Proofs.SoundMaps

/-! # Channel maps in another order

  Two channel maps that list the same LEDs, and for each LED the same channels, may do so
  in different orders. Then they agree about every line, up to the places of the LEDs and
  up to the order in which a `-` switches channels off (`compile_reordered`).

  * **Counterparts**: LEDs and places of two maps that belong together.
  * **Blocks**: what each token of a line asks for.
  * **Lines**: what two such maps make of a line.
-/

namespace LedSequencer

/-! ### Counterparts -/

/-- Two LEDs have the same name and the same channels, in whatever order. -/
structure Led.SameAs (l l' : Led) : Prop where
  name : l.name = l'.name
  channels : ∀ channel, channel ∈ l.channels ↔ channel ∈ l'.channels

namespace ChannelMap

/-- Each LED of two maps has a counterpart in the other one. -/
structure Pairs (R : Led → Led → Prop) (map map' : ChannelMap) : Prop where
  left : ∀ l ∈ map.leds, ∃ l' ∈ map'.leds, R l l'
  right : ∀ l' ∈ map'.leds, ∃ l ∈ map.leds, R l l'

/-- Two maps have the same LEDs with the same channels, in whatever order. -/
def SameUpToOrder (map map' : ChannelMap) : Prop := Pairs Led.SameAs map map'

/-- At two places there are counterparts. -/
def Paired (R : Led → Led → Prop) (map map' : ChannelMap) (i j : Nat) : Prop :=
  ∃ l l', map.led? i = some l ∧ map'.led? j = some l' ∧ R l l'

section

variable {R : Led → Led → Prop} {map map' : ChannelMap}

/-- LEDs of the same name are counterparts, since there is no other one of that name. -/
theorem Pairs.of_name (h : Pairs R map map') (hname : ∀ l l', R l l' → l.name = l'.name)
    (hsound : map'.IsSound) {l l' : Led} (hl : l ∈ map.leds) (hl' : l' ∈ map'.leds)
    (hsame : l.name = l'.name) : R l l' := by
  obtain ⟨other, hother, hR⟩ := h.left l hl
  have heq : other = l' := by
    apply List.inj_on_of_nodup_map hsound.names hother hl'
    exact (hname l other hR).symm.trans hsame
  rw [← heq]
  exact hR

/-- A name is found in both maps or in neither, and where it is found there are counterparts. -/
theorem Pairs.find? (h : Pairs R map map') (hname : ∀ l l', R l l' → l.name = l'.name)
    (hsound : map'.IsSound) (name : String) :
    (map.find? name = none ∧ map'.find? name = none) ∨
      ∃ i j, map.find? name = some i ∧ map'.find? name = some j ∧ Paired R map map' i j := by
  cases hfind : map.find? name with
  | none =>
    have hmissing := find?_eq_none_iff.1 hfind
    refine .inl ⟨rfl, find?_eq_none_iff.2 ?_⟩
    intro l' hl' hsame
    obtain ⟨l, hl, hR⟩ := h.right l' hl'
    exact hmissing l hl ((hname l l' hR).trans hsame)
  | some i =>
    obtain ⟨l, hi, hnamed⟩ := led?_of_find? hfind
    obtain ⟨l', hl', hR⟩ := h.left l (List.mem_of_getElem? hi)
    obtain ⟨j, hj⟩ := List.mem_iff_getElem?.1 hl'
    have hfind' := hsound.find?_name hj
    rw [← hname l l' hR, hnamed] at hfind'
    exact .inr ⟨i, j, rfl, hfind', l, l', hi, hj, hR⟩

/-- A token leaves places with counterparts. -/
theorem Pairs.tokenLed (h : Pairs R map map') (hname : ∀ l l', R l l' → l.name = l'.name)
    (hsound : map'.IsSound) {i j : Nat} (hij : Paired R map map' i j) (t : Token) :
    Paired R map map' (tokenLed map i t) (tokenLed map' j t) := by
  cases t with
  | select name =>
    simp only [LedSequencer.tokenLed]
    rcases h.find? hname hsound name with ⟨hnone, hnone'⟩ | ⟨k, k', hk, hk', hpaired⟩
    · rw [hnone, hnone']
      exact hij
    · rw [hk, hk']
      exact hpaired
  | allOff | pause | channels | unknown => exact hij

end

end ChannelMap

namespace Led.SameAs

variable {l l' : Led}

/-- The order of the channels does not matter to the pin of a letter. -/
theorem pin?_eq (h : l.SameAs l') (hletters : (l.channels.map Channel.letter).Nodup)
    (hletters' : (l'.channels.map Channel.letter).Nodup) (c : Char) : l.pin? c = l'.pin? c := by
  apply Option.ext
  intro pin
  rw [Led.pin?_eq_some_iff hletters, Led.pin?_eq_some_iff hletters']
  simp only [h.channels]

/-- The pins are the same, in whatever order. -/
theorem perm_pins (h : l.SameAs l') (hletters : (l.channels.map Channel.letter).Nodup)
    (hletters' : (l'.channels.map Channel.letter).Nodup) : l.pins.Perm l'.pins := by
  have hchannels : l.channels.Nodup := List.Nodup.of_map _ hletters
  have hchannels' : l'.channels.Nodup := List.Nodup.of_map _ hletters'
  have hperm := (List.perm_ext_iff_of_nodup hchannels hchannels').2 h.channels
  exact hperm.map Channel.pin

end Led.SameAs

/-! ### Blocks -/

/-- Each token with the operations that it asks for, with the LED at the given place selected at
    first. -/
def blocks (map : ChannelMap) : Nat → List Token → List (Token × List Operation)
  | _, [] => []
  | led, t :: rest =>
    (t, Fate.operations (tokenFates map led t)) :: blocks map (tokenLed map led t) rest

/-- Two blocks are the same, or they are for a `-` and switch the same pins off, in whatever
    order. -/
inductive SameBlock : Token × List Operation → Token × List Operation → Prop where
  | same (t : Token) (ops : List Operation) : SameBlock (t, ops) (t, ops)
  | allOff (pins pins' : List Pin) (h : pins.Perm pins') :
      SameBlock (.allOff, pins.map .off) (.allOff, pins'.map .off)

/-- A selector asks for no operation. -/
theorem operations_select (map : ChannelMap) (led : Nat) (name : String) :
    Fate.operations (tokenFates map led (.select name)) = [] := by
  cases h : map.find? name <;> simp [tokenFates, h]

theorem flatMap_blocks (map : ChannelMap) (led : Nat) (ts : List Token) :
    (blocks map led ts).flatMap Prod.snd = Fate.operations (lineFates map led ts) := by
  induction ts generalizing led with
  | nil => rfl
  | cons t rest ih => rw [blocks, List.flatMap_cons, ih, lineFates, Fate.operations_append]

theorem map_fst_blocks (map : ChannelMap) (led : Nat) (ts : List Token) :
    (blocks map led ts).map Prod.fst = ts := by
  induction ts generalizing led with
  | nil => rfl
  | cons t rest ih => rw [blocks, List.map_cons, ih]

/-- What becomes of a line, by what its tokens ask for. -/
theorem compile_eq_blocks (line : String) (map : ChannelMap) (led : Nat) :
    compile line map led =
      let ops := (blocks map led (tokens line)).flatMap Prod.snd
      if ops.length < capacity then
        .ok { sequence := .ofList ops, led := lineLed map led (tokens line) }
      else .error (.tooLong capacity) := by
  unfold compile
  rw [compilation_eq, flatMap_blocks]
  simp only
  split <;> rfl

/-- What is accepted has the operations of its blocks. -/
theorem blocks_of_ok {line : String} {map : ChannelMap} {led : Nat} {c : Compiled}
    (h : compile line map led = .ok c) :
    c.sequence = .ofList ((blocks map led (tokens line)).flatMap Prod.snd) ∧
      c.sequence.body.toList = (blocks map led (tokens line)).flatMap Prod.snd ∧
      c.led = lineLed map led (tokens line) := by
  have hrewind := rewind_notMem_lineFates map led (tokens line)
  rw [← flatMap_blocks] at hrewind
  rw [compile_eq_blocks] at h
  simp only at h
  split at h
  · next hlength =>
    cases h
    exact ⟨rfl, Sequence.body_ofList hrewind hlength, rfl⟩
  · cases h

section

variable {map map' : ChannelMap} {i j : Nat}

/-- Tokens ask for related blocks if each token does, wherever there are counterparts. -/
theorem forall₂_blocks {R : Led → Led → Prop}
    {S : Token × List Operation → Token × List Operation → Prop}
    (hpairs : ChannelMap.Pairs R map map')
    (hname : ∀ l l', R l l' → l.name = l'.name) (hsound : map'.IsSound)
    (hblock : ∀ i j, ChannelMap.Paired R map map' i j → ∀ t,
      S (t, Fate.operations (tokenFates map i t)) (t, Fate.operations (tokenFates map' j t)))
    (hij : ChannelMap.Paired R map map' i j) (ts : List Token) :
    List.Forall₂ S (blocks map i ts) (blocks map' j ts) ∧
      ChannelMap.Paired R map map' (lineLed map i ts) (lineLed map' j ts) := by
  -- the two selections move on together, always at counterparts
  induction ts generalizing i j with
  | nil => exact ⟨.nil, hij⟩
  | cons t rest ih =>
    have hnext := hpairs.tokenLed hname hsound hij t
    obtain ⟨hrest, hlast⟩ := ih hnext
    exact ⟨.cons (hblock i j hij t) hrest, hlast⟩

/-- What a token asks for depends on the selected LED alone. -/
theorem tokenFates_operations_eq {l : Led} (hi : map.led? i = some l) (hj : map'.led? j = some l)
    (t : Token) :
    Fate.operations (tokenFates map i t) = Fate.operations (tokenFates map' j t) := by
  cases t with
  | select name => rw [operations_select, operations_select]
  | allOff | channels letters => simp only [tokenFates, hi, hj]
  | pause | unknown => rfl

/-- Wherever there are the same LEDs, a token asks for the same up to order. -/
theorem sameBlock_of_paired (hsound : map.IsSound) (hsound' : map'.IsSound)
    (hij : ChannelMap.Paired Led.SameAs map map' i j) (t : Token) :
    SameBlock (t, Fate.operations (tokenFates map i t))
      (t, Fate.operations (tokenFates map' j t)) := by
  obtain ⟨l, l', hi, hj, hsame⟩ := hij
  have hletters := hsound.letters l (List.mem_of_getElem? hi)
  have hletters' := hsound'.letters l' (List.mem_of_getElem? hj)
  have hequal {ops ops' : List Operation} (h : ops = ops') : SameBlock (t, ops) (t, ops') :=
    h ▸ .same t ops
  cases t with
  | select name =>
    apply hequal
    rw [operations_select, operations_select]
  | pause | unknown => exact hequal rfl
  | channels letters =>
    apply hequal
    simp only [tokenFates, hi, hj, operations_map_letterFate]
    apply congrArg (letters.flatMap ·)
    funext c
    unfold letterEmission
    rw [hsame.pin?_eq hletters hletters']
  | allOff =>
    have hoff (pins : List Pin) :
        Fate.operations (pins.map fun pin => .emitted (.off pin)) = pins.map .off := by
      simp [Fate.operations, List.filterMap_map, Function.comp_def, Fate.operation?]
    simp only [tokenFates, hi, hj, hoff]
    exact .allOff l.pins l'.pins (hsame.perm_pins hletters hletters')

end

theorem SameBlock.perm {b b' : Token × List Operation} (h : SameBlock b b') : b.2.Perm b'.2 := by
  cases h with
  | same t ops => exact .refl ops
  | allOff pins pins' h => exact h.map _

/-- Blocks that are the same up to order come to the same operations, up to order. -/
theorem perm_of_sameBlocks {bs bs' : List (Token × List Operation)}
    (h : List.Forall₂ SameBlock bs bs') :
    (bs.flatMap Prod.snd).Perm (bs'.flatMap Prod.snd) := by
  induction h with
  | nil => exact .refl []
  | cons hblock _ ih =>
    rw [List.flatMap_cons, List.flatMap_cons]
    exact hblock.perm.append ih

/-- Without a `-`, blocks that are the same up to order are the same. -/
theorem eq_of_sameBlocks {bs bs' : List (Token × List Operation)}
    (h : List.Forall₂ SameBlock bs bs') (hoff : .allOff ∉ bs.map Prod.fst) : bs = bs' := by
  induction h with
  | nil => rfl
  | cons hblock _ ih =>
    rw [List.map_cons, List.mem_cons, not_or] at hoff
    rw [ih hoff.2]
    cases hblock with
    | same t ops => rfl
    | allOff pins pins' h => exact absurd rfl hoff.1

/-! ### Lines -/

/-- **The order of a channel map matters only to a `-`.** Let two channel maps that were read have
    the same LEDs with the same channels, in whatever orders, and let an LED of the same name be
    selected in both. Then a line is accepted with one map exactly when it is accepted with the
    other. If so, it leaves LEDs of the same name selected, the sequences are both static or both
    not, and token by token they have the same operations, except that a `-` may switch its pins off
    in another order. Without a `-`, or when each LED has its channels in the same order in both
    maps, the sequences are the same. -/
theorem compile_reordered {text text' : String} {map map' : ChannelMap}
    (hmap : ChannelMap.ofText text = .ok map) (hmap' : ChannelMap.ofText text' = .ok map')
    (horder : map.SameUpToOrder map') {led led' : Nat} {l l' : Led} (hled : map.led? led = some l)
    (hled' : map'.led? led' = some l') (hname : l.name = l'.name) (line : String) :
    ((∃ c, compile line map led = .ok c) ↔ ∃ c', compile line map' led' = .ok c') ∧
    ∀ c c', compile line map led = .ok c → compile line map' led' = .ok c' →
      (∃ m m', map.led? c.led = some m ∧ map'.led? c'.led = some m' ∧ m.name = m'.name) ∧
      c.sequence.isStatic = c'.sequence.isStatic ∧
      c.sequence.body.toList = (blocks map led (tokens line)).flatMap Prod.snd ∧
      c'.sequence.body.toList = (blocks map' led' (tokens line)).flatMap Prod.snd ∧
      List.Forall₂ SameBlock (blocks map led (tokens line)) (blocks map' led' (tokens line)) ∧
      (.allOff ∉ tokens line → c.sequence = c'.sequence) ∧
      ((∀ m, m ∈ map.leds ↔ m ∈ map'.leds) → c.sequence = c'.sequence) := by
  have hsound := ChannelMap.isSound_of_ofText hmap
  have hsound' := ChannelMap.isSound_of_ofText hmap'
  have hl : l ∈ map.leds := List.mem_of_getElem? hled
  have hl' : l' ∈ map'.leds := List.mem_of_getElem? hled'
  have hsame : l.SameAs l' := horder.of_name (fun _ _ h => h.name) hsound' hl hl' hname
  obtain ⟨hblocks, hlast⟩ := forall₂_blocks horder (fun _ _ h => h.name) hsound'
    (fun i j hij t => sameBlock_of_paired hsound hsound' hij t)
    ⟨l, l', hled, hled', hsame⟩ (tokens line)
  have hperm := perm_of_sameBlocks hblocks
  -- the bound on the length does not depend on the order
  have hlength := hperm.length_eq
  constructor
  · rw [compile_eq_blocks, compile_eq_blocks]
    simp only [hlength]
    split <;> simp
  intro c c' hc hc'
  obtain ⟨hsequence, hbody, hc_led⟩ := blocks_of_ok hc
  obtain ⟨hsequence', hbody', hc_led'⟩ := blocks_of_ok hc'
  refine ⟨?_, ?_, hbody, hbody', hblocks, ?_, ?_⟩
  · obtain ⟨m, m', hm, hm', hmm'⟩ := hlast
    rw [hc_led, hc_led']
    exact ⟨m, m', hm, hm', hmm'.name⟩
  · rw [c.sequence.isStatic_eq, c'.sequence.isStatic_eq, ← Array.all_toList, ← Array.all_toList,
      hbody, hbody']
    exact hperm.all_eq
  · intro hoff
    rw [← map_fst_blocks map led (tokens line)] at hoff
    rw [hsequence, hsequence', eq_of_sameBlocks hblocks hoff]
  · intro hleds
    -- counterparts are the very same LEDs now
    have hpairs : ChannelMap.Pairs Eq map map' := by
      constructor
      · intro m hm
        exact ⟨m, (hleds m).1 hm, rfl⟩
      · intro m hm
        exact ⟨m, (hleds m).2 hm, rfl⟩
    have heq : l = l' := hpairs.of_name (fun _ _ h => congrArg Led.name h) hsound' hl hl' hname
    have hblock : ∀ i j, ChannelMap.Paired Eq map map' i j → ∀ t,
        (t, Fate.operations (tokenFates map i t)) = (t, Fate.operations (tokenFates map' j t)) := by
      intro i j hij t
      obtain ⟨m, _, hi, hj, rfl⟩ := hij
      rw [tokenFates_operations_eq hi hj]
    have hsame := (forall₂_blocks hpairs (fun _ _ h => congrArg Led.name h) hsound' hblock
      ⟨l, l', hled, hled', heq⟩ (tokens line)).1
    rw [List.forall₂_eq_eq_eq] at hsame
    rw [hsequence, hsequence', hsame]

/-- The LEDs of `duo` and the channels of each, the other way round. -/
def duoReversed : ChannelMap where
  leds := [
    { name := "B", channels := [
        { letter := 'r', pin := ⟨3⟩, letter_isLower := Eq.refl true },
        { letter := 'g', pin := ⟨2⟩, letter_isLower := Eq.refl true }] },
    { name := "A", channels := [{ letter := 'r', pin := ⟨1⟩, letter_isLower := Eq.refl true }] }]

theorem duo_sameUpToOrder : duo.SameUpToOrder duoReversed := by
  have hfirst : Led.SameAs duo.leds[0] duoReversed.leds[1] := ⟨rfl, fun _ => Iff.rfl⟩
  have hsecond : Led.SameAs duo.leds[1] duoReversed.leds[0] := by
    refine ⟨rfl, fun channel => List.Perm.mem_iff ?_⟩
    decide
  constructor
  · intro l hl
    rcases List.mem_pair.1 hl with rfl | rfl
    · exact ⟨_, List.mem_cons_of_mem _ List.mem_cons_self, hfirst⟩
    · exact ⟨_, List.mem_cons_self, hsecond⟩
  · intro l hl
    rcases List.mem_pair.1 hl with rfl | rfl
    · exact ⟨_, List.mem_cons_of_mem _ List.mem_cons_self, hsecond⟩
    · exact ⟨_, List.mem_cons_self, hfirst⟩

/-- The `-` switches the channels of the second LED off in both orders; all else is the same. -/
theorem compile_reordered_duo :
    let c : Compiled :=
      { sequence := .ofList [.on ⟨1⟩, .off ⟨2⟩, .off ⟨3⟩, .on ⟨2⟩], led := 1 }
    let c' : Compiled :=
      { sequence := .ofList [.on ⟨1⟩, .off ⟨3⟩, .off ⟨2⟩, .on ⟨2⟩], led := 0 }
    ChannelMap.ofText "[A]\nr = 1\n[B]\ng = 2\nr = 3\n" = .ok duo ∧
      ChannelMap.ofText "[B]\nr = 3\ng = 2\n[A]\nr = 1\n" = .ok duoReversed ∧
      duo.SameUpToOrder duoReversed ∧ compile "R B: - G" duo 0 = .ok c ∧
      compile "R B: - G" duoReversed 1 = .ok c' ∧
      (∃ m m', duo.led? c.led = some m ∧ duoReversed.led? c'.led = some m' ∧ m.name = m'.name) ∧
      c.sequence.isStatic = c'.sequence.isStatic := by
  intro c c'
  have hmap : ChannelMap.ofText "[A]\nr = 1\n[B]\ng = 2\nr = 3\n" = .ok duo := by decide +kernel
  have hmap' : ChannelMap.ofText "[B]\nr = 3\ng = 2\n[A]\nr = 1\n" = .ok duoReversed := by
    decide +kernel
  have hc : compile "R B: - G" duo 0 = .ok c := by decide +kernel
  have hc' : compile "R B: - G" duoReversed 1 = .ok c' := by decide +kernel
  have hled : duo.led? 0 = some duo.leds[0] := rfl
  have hled' : duoReversed.led? 1 = some duoReversed.leds[1] := rfl
  obtain ⟨_, hsame⟩ :=
    compile_reordered hmap hmap' duo_sameUpToOrder hled hled' rfl "R B: - G"
  obtain ⟨hleds, hstatic, _⟩ := hsame c c' hc hc'
  exact ⟨hmap, hmap', duo_sameUpToOrder, hc, hc', hleds, hstatic⟩

end LedSequencer
