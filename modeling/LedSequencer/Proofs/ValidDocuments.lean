import Mathlib
import LedSequencer.Proofs.DocumentFaults

/-! # Valid documents

  The validator keeps track of the beginning of the document that it has read. As long
  as that is faultless, what an entry or a section adds to it is read, and what has a
  fault is refused for it: so the validator accepts the valid documents and reports the
  first fault of all others (`ofText_valid_or_first_fault`).
-/

namespace LedSequencer

/-! ### Reading -/

/-- Someone who uses a pin is the assignment of that pin. -/
def Owns (a : Assignment) (owner : Pin × String) : Prop :=
  a.datum = .integer owner.1.number.toNat ∧
    ∃ letter, lowerKey a.key = [letter] ∧ owner.2 = channelName a.led letter

/-- What the reading of a section keeps track of: who uses which pin, over the whole beginning of
    the document, and the channels of the section. -/
structure Tracks (before : Document) (led : String) (earlier : List (String × Datum))
    (owners : Owners) (channels : List Channel) : Prop where
  owners : List.Forall₂ Owns (Document.assignments (before ++ [(led, .table earlier)])) owners
  channels : List.Forall₂ Channel.IsOf earlier channels

theorem Pin.eq_of_toNat {p q : Pin} (h : p.number.toNat = q.number.toNat) : p = q := by
  cases p
  cases q
  congr
  exact UInt8.toNat_inj.1 h

/-- A pin is looked up among the assignments. -/
theorem lookup_of_owns {assignments : List Assignment} {owners : Owners}
    (h : List.Forall₂ Owns assignments owners) (pin : Pin) :
    match owners.lookup pin with
    | none => ∀ a ∈ assignments, a.datum ≠ .integer pin.number.toNat
    | some first => ∃ a ∈ assignments, a.datum = .integer pin.number.toNat ∧
        ∃ letter, lowerKey a.key = [letter] ∧ first = channelName a.led letter := by
  induction h with
  | nil => simp
  | @cons a owner assignments owners howns hrest ih =>
    obtain ⟨hdatum, hname⟩ := howns
    by_cases hpin : pin = owner.1
    · -- this is the owner of the pin
      have hfound : List.lookup pin (owner :: owners) = some owner.2 := by
        rw [hpin]
        exact List.lookup_cons_self
      rw [hfound]
      exact ⟨a, List.mem_cons_self, hpin ▸ hdatum, hname⟩
    · have hnext : List.lookup pin (owner :: owners) = owners.lookup pin := by
        rw [List.lookup_cons, beq_false_of_ne hpin]
      have hother : a.datum ≠ .integer pin.number.toNat := by
        rw [hdatum]
        intro h
        exact hpin (Pin.eq_of_toNat (Int.ofNat.inj (Datum.integer.inj h)).symm)
      rw [hnext]
      cases hlookup : owners.lookup pin with
      | none =>
        rw [hlookup] at ih
        exact List.forall_mem_cons.2 ⟨hother, ih⟩
      | some first =>
        rw [hlookup] at ih
        obtain ⟨a', ha', hfirst⟩ := ih
        exact ⟨a', List.mem_cons_of_mem a ha', hfirst⟩

/-- The letters of a section are those of its entries. -/
theorem any_letter_iff {earlier : List (String × Datum)} {channels : List Channel}
    (h : List.Forall₂ Channel.IsOf earlier channels) (c : Char) :
    (channels.any fun channel => channel.letter = c) = true ↔
      ∃ e ∈ earlier, lowerKey e.1 = [c] := by
  induction h with
  | nil => simp
  | @cons e channel earlier channels hof hrest ih =>
    rw [List.any_cons, Bool.or_eq_true, ih, List.exists_mem_cons_iff, hof.1]
    simp

/-- The pins that a number can name are those of the board. -/
theorem pinOfInt?_eq_some_iff {value : Int} {pin : Pin} :
    pinOfInt? value = some pin ↔ value = pin.number.toNat ∧ pin.number.toNat ≤ 27 := by
  have hhighest : Int.ofNat Pin.highest = 27 := rfl
  unfold pinOfInt?
  rw [hhighest]
  constructor
  · intro h
    split at h
    · next hrange =>
      cases h
      have hvalue : (UInt8.ofNat value.toNat).toNat = value.toNat :=
        UInt8.toNat_ofNat_of_lt' (by show value.toNat < 256; omega)
      rw [hvalue]
      omega
    · cases h
  · rintro ⟨rfl, hrange⟩
    rw [if_pos (by omega)]
    simp

theorem pinOfInt?_eq_none_iff {value : Int} :
    pinOfInt? value = none ↔ value < 0 ∨ 27 < value := by
  have hhighest : Int.ofNat Pin.highest = 27 := rfl
  unfold pinOfInt?
  rw [hhighest]
  split
  · simp
    omega
  · simp
    omega

section

variable {before : Document} {led : String} {earlier : List (String × Datum)} {owners : Owners}
variable {channels : List Channel} {key : String} {datum : Datum}

/-- A name that is no ASCII letter names no channel. -/
theorem readEntry_of_not_isLetter (hkey : ¬ IsLetter key) :
    readEntry led owners channels key datum = .error (.invalidChannel led key) := by
  unfold readEntry
  split
  · next c hc =>
    rw [dif_neg]
    rw [Char.isLower_toLower_eq_isAlpha]
    exact fun halpha => hkey ⟨c, hc, halpha⟩
  · rfl

/-- An entry that is read after a faultless beginning is faultless and gives the channel; any other
    entry is refused for its fault. -/
theorem readEntry_verdict (hpart : Document.IsFaultless (before ++ [(led, .table earlier)]))
    (h : Tracks before led earlier owners channels) (key : String) (datum : Datum) :
    match readEntry led owners channels key datum with
    | .error error => Document.EntryFault before led earlier key datum error
    | .ok channel => Channel.IsOf (key, datum) channel ∧
        Document.IsFaultless (before ++ [(led, .table (earlier ++ [(key, datum)]))]) := by
  by_cases hletter : IsLetter key
  · obtain ⟨c, hc, halpha⟩ := hletter
    have hlower : lowerKey key = [c.toLower] := by rw [lowerKey, hc]; rfl
    have hletter : c.toLower.isLower = true := (Char.isLower_toLower_eq_isAlpha c).trans halpha
    simp only [readEntry, hc, dif_pos hletter]
    by_cases hany : (channels.any fun channel => channel.letter = c.toLower) = true
    · rw [if_pos hany]
      exact .duplicateChannel c hc halpha ((any_letter_iff h.channels _).1 hany)
    rw [if_neg hany]
    have hnew : Document.IsNewLetter earlier c := by
      refine ⟨halpha, fun e he hsame => hany ?_⟩
      exact (any_letter_iff h.channels _).2 ⟨e, he, hsame⟩
    cases datum with
    | integer value =>
      simp only
      cases hpin : pinOfInt? value with
      | none => exact .pinOutOfRange c hc hnew value rfl (pinOfInt?_eq_none_iff.1 hpin)
      | some pin =>
        obtain ⟨rfl, hrange⟩ := pinOfInt?_eq_some_iff.1 hpin
        have hlookup := lookup_of_owns h.owners pin
        simp only
        cases hfirst : owners.lookup pin with
        | none =>
          rw [hfirst] at hlookup
          refine ⟨⟨hlower, rfl⟩, Document.isFaultless_entry_iff.2 ⟨hpart, ⟨c, hc, halpha⟩, ?_⟩⟩
          refine ⟨fun e he => ?_, pin.number.toNat, hrange, rfl, hlookup⟩
          rw [hlower]
          exact hnew.2 e he
        | some first =>
          rw [hfirst] at hlookup
          obtain ⟨owner, howner, hsame, letter, hownerLetter, rfl⟩ := hlookup
          refine .duplicatePin c hc hnew pin rfl hrange owner letter howner hsame hownerLetter ?_
          intro a ha hdatum
          exact hpart.eq_of_datum ha howner hdatum hsame
    | text | real | truth | moment | list | table => exact .invalidPin c hc hnew rfl
  · rw [readEntry_of_not_isLetter hletter]
    exact .invalidChannel hletter

/-- An entry with a fault is refused for it. -/
theorem readEntry_of_fault {error : ConfigError}
    (h : Tracks before led earlier owners channels)
    (hfault : Document.EntryFault before led earlier key datum error) :
    readEntry led owners channels key datum = .error error := by
  have hlower {c : Char} (hc : c.isAlpha = true) : c.toLower.isLower = true :=
    (Char.isLower_toLower_eq_isAlpha c).trans hc
  have hfresh {c : Char} (hc : Document.IsNewLetter earlier c) :
      ¬ (channels.any fun channel => channel.letter = c.toLower) = true := by
    rw [any_letter_iff h.channels]
    rintro ⟨e, he, hsame⟩
    exact hc.2 e he hsame
  cases hfault with
  | invalidChannel hkey => exact readEntry_of_not_isLetter hkey
  | duplicateChannel c hkey hc hearlier =>
    simp only [readEntry, hkey, dif_pos (hlower hc),
      if_pos ((any_letter_iff h.channels _).2 hearlier)]
  | invalidPin c hkey hc hdatum =>
    simp only [readEntry, hkey, dif_pos (hlower hc.1), if_neg (hfresh hc)]
    cases datum with
    | integer value => cases hdatum
    | text | real | truth | moment | list | table => rfl
  | pinOutOfRange c hkey hc value hdatum hvalue =>
    simp only [readEntry, hkey, dif_pos (hlower hc.1), if_neg (hfresh hc), hdatum,
      pinOfInt?_eq_none_iff.2 hvalue]
  | duplicatePin c hkey hc pin hdatum hpin owner letter howner hsame hletter hunique =>
    simp only [readEntry, hkey, dif_pos (hlower hc.1), if_neg (hfresh hc), hdatum,
      pinOfInt?_eq_some_iff.2 ⟨rfl, hpin⟩]
    have hlookup := lookup_of_owns h.owners pin
    cases hfirst : owners.lookup pin with
    | none =>
      rw [hfirst] at hlookup
      exact absurd (hsame.trans hdatum) (hlookup owner howner)
    | some first =>
      rw [hfirst] at hlookup
      -- the owner that is found is the only one there is
      obtain ⟨a, ha, hadatum, letter', hletter', rfl⟩ := hlookup
      obtain rfl := hunique a ha (hadatum.trans hdatum.symm)
      rw [hletter] at hletter'
      cases hletter'
      rfl

/-! ### Sections -/

/-- What is kept track of grows with an entry that was read. -/
theorem Tracks.entry (h : Tracks before led earlier owners channels) {channel : Channel}
    (hof : Channel.IsOf (key, datum) channel) :
    Tracks before led (earlier ++ [(key, datum)])
      (owners ++ [(channel.pin, channelName led channel.letter)]) (channels ++ [channel]) := by
  obtain ⟨howners, hchannels⟩ := h
  refine ⟨?_, List.rel_append hchannels (.cons hof .nil)⟩
  rw [Document.assignments_section, List.map_append, ← List.append_assoc,
    ← Document.assignments_section]
  exact List.rel_append howners (.cons ⟨hof.2, channel.letter, hof.1, rfl⟩ .nil)

/-- Entries that are read one after the other are faultless and give the channels; otherwise they
    are refused for the fault of the first entry that has one. -/
theorem readEntries_verdict (rest : List (String × Datum))
    (hpart : Document.IsFaultless (before ++ [(led, .table earlier)]))
    (h : Tracks before led earlier owners channels) :
    (∀ error, readEntries led owners channels rest = .error error ↔
      ∃ mid key datum later, rest = mid ++ (key, datum) :: later ∧
        Document.IsFaultless (before ++ [(led, .table (earlier ++ mid))]) ∧
        Document.EntryFault before led (earlier ++ mid) key datum error) ∧
    ∀ owners' channels', readEntries led owners channels rest = .ok (owners', channels') →
      Tracks before led (earlier ++ rest) owners' channels' ∧
      Document.IsFaultless (before ++ [(led, .table (earlier ++ rest))]) := by
  induction rest generalizing earlier owners channels with
  | nil =>
    constructor
    · intro error
      constructor
      · intro hread
        cases hread
      · rintro ⟨mid, key, datum, later, hrest, _⟩
        simp at hrest
    · intro owners' channels' hread
      cases hread
      rw [List.append_nil]
      exact ⟨h, hpart⟩
  | cons entry rest ih =>
    obtain ⟨key, datum⟩ := entry
    have hverdict := readEntry_verdict hpart h key datum
    rw [readEntries]
    cases hread : readEntry led owners channels key datum with
    | error first =>
      rw [hread] at hverdict
      constructor
      · intro error
        show Except.error first = Except.error error ↔ _
        constructor
        · intro heq
          cases heq
          refine ⟨[], key, datum, rest, rfl, ?_, ?_⟩
          · rwa [List.append_nil]
          · rwa [List.append_nil]
        · rintro ⟨mid, key', datum', later, hrest, hmid, hfault⟩
          cases mid with
          | nil =>
            cases hrest
            rw [List.append_nil] at hfault
            have hrefused := readEntry_of_fault h hfault
            rw [hread] at hrefused
            cases hrefused
            rfl
          | cons e mid =>
            -- the fault comes before the one that is claimed to be first
            cases hrest
            rw [List.append_cons earlier] at hmid
            exact absurd hmid.of_entries hverdict.not_isFaultless
      · intro owners' channels' hok
        cases hok
    | ok channel =>
      rw [hread] at hverdict
      obtain ⟨hof, hfaultless⟩ := hverdict
      obtain ⟨herror, hok⟩ := ih hfaultless (h.entry hof)
      simp only [List.append_assoc, List.singleton_append] at herror hok
      constructor
      · intro error
        show readEntries led _ _ rest = .error error ↔ _
        rw [herror]
        constructor
        · rintro ⟨mid, key', datum', later, rfl, hmid, hfault⟩
          exact ⟨(key, datum) :: mid, key', datum', later, rfl, hmid, hfault⟩
        · rintro ⟨mid, key', datum', later, hrest, hmid, hfault⟩
          cases mid with
          | nil =>
            cases hrest
            rw [List.append_nil] at hfault
            have hrefused := readEntry_of_fault h hfault
            rw [hread] at hrefused
            cases hrefused
          | cons first mid =>
            cases hrest
            exact ⟨mid, key', datum', later, rfl, hmid, hfault⟩
      · exact hok

end

/-- A section that is read after a faultless beginning is faultless and gives the channels;
    otherwise it is refused for its first fault. -/
theorem readSection_verdict {before : Document} {owners : Owners} (hbefore : before.IsFaultless)
    (howners : List.Forall₂ Owns before.assignments owners) (name : String)
    (entries : List (String × Datum)) :
    (∀ error, readEntries name owners [] entries = .error error ↔
      Document.FaultAfter before [(name, .table entries)] error) ∧
    ∀ owners' channels, readEntries name owners [] entries = .ok (owners', channels) →
      Tracks before name entries owners' channels ∧
      Document.IsFaultless (before ++ [(name, .table entries)]) := by
  have hstart : Tracks before name [] owners [] := by
    refine ⟨?_, .nil⟩
    rw [Document.assignments_section, List.map_nil, List.append_nil]
    exact howners
  obtain ⟨herror, hok⟩ := readEntries_verdict entries
    (Document.isFaultless_empty_section_iff.2 hbefore) hstart
  simp only [List.nil_append] at herror hok
  refine ⟨fun error => ?_, hok⟩
  rw [herror, Document.faultAfter_section_iff]

/-- A top-level name that stands for no table is refused. -/
theorem readSections_other {owners : Owners} {name : String} {datum : Datum}
    (hdatum : ∀ entries, datum ≠ .table entries) (rest : Document) :
    readSections owners ((name, datum) :: rest) = .error (.notASection name) := by
  cases datum with
  | table entries => exact absurd rfl (hdatum entries)
  | text | integer | real | truth | moment | list => rfl

/-- Sections that are read one after the other are faultless and give the LEDs; otherwise they are
    refused for the first fault. -/
theorem readSections_verdict {before : Document} (rest : Document) {owners : Owners}
    (hbefore : before.IsFaultless) (howners : List.Forall₂ Owns before.assignments owners) :
    (∀ error, readSections owners rest = .error error ↔ Document.FaultAfter before rest error) ∧
    ∀ leds, readSections owners rest = .ok leds →
      List.Forall₂ Led.IsOf rest leds ∧ Document.IsFaultless (before ++ rest) := by
  induction rest generalizing before owners with
  | nil =>
    refine ⟨fun error => ⟨fun hread => (by cases hread), ?_⟩, fun leds hread => ?_⟩
    · intro h
      exact absurd h Document.not_faultAfter_nil
    · cases hread
      rw [List.append_nil]
      exact ⟨.nil, hbefore⟩
  | cons s rest ih =>
    obtain ⟨name, datum⟩ := s
    by_cases hdatum : ∃ entries, datum = .table entries
    · obtain ⟨entries, rfl⟩ := hdatum
      obtain ⟨herror, hok⟩ := readSection_verdict hbefore howners name entries
      rw [readSections]
      simp only [Document.faultAfter_cons_iff, ← herror]
      cases hread : readEntries name owners [] entries with
      | error first =>
        -- what follows the section does not matter
        have hfirst := (herror first).1 hread
        refine ⟨fun error => ⟨fun heq => (by cases heq; exact .inl rfl), ?_⟩, fun leds hok => ?_⟩
        · rintro (heq | ⟨hfaultless, _⟩)
          · cases heq
            rfl
          · exact absurd hfaultless hfirst.not_isFaultless
        · cases hok
      | ok read =>
        obtain ⟨owners', channels⟩ := read
        obtain ⟨htracks, hfaultless⟩ := hok owners' channels hread
        -- the section joins the beginning that the others are read after
        obtain ⟨herror', hok'⟩ := ih hfaultless htracks.owners
        simp only [bind, Except.bind, ← herror', hfaultless]
        cases hrest : readSections owners' rest with
        | error first => simp
        | ok more =>
          refine ⟨fun error => by simp, fun leds hok => ?_⟩
          cases hok
          obtain ⟨hmore, hall⟩ := hok' more hrest
          rw [List.append_assoc] at hall
          exact ⟨.cons ⟨rfl, entries, rfl, htracks.channels⟩ hmore, hall⟩
    · have hother : ∀ entries, datum ≠ .table entries := fun entries heq => hdatum ⟨entries, heq⟩
      have hfirst : Document.FaultAfter before [(name, datum)] (.notASection name) :=
        (Document.faultAfter_other_iff hother).2 ⟨hbefore, rfl⟩
      rw [readSections_other hother]
      refine ⟨fun error => ?_, fun leds hok => by cases hok⟩
      rw [Document.faultAfter_cons_iff, Document.faultAfter_other_iff hother]
      constructor
      · intro heq
        cases heq
        exact .inl ⟨hbefore, rfl⟩
      · rintro (⟨_, rfl⟩ | ⟨hfaultless, _⟩)
        · rfl
        · exact absurd hfaultless hfirst.not_isFaultless

/-! ### Documents -/

namespace ChannelMap

/-- A document that describes a channel map gives it, and any other one is refused for its first
    fault. -/
theorem ofDocument_verdict (document : Document) :
    (∀ error, ofDocument document = .error error ↔ document.FirstFault error) ∧
    ∀ map, ofDocument document = .ok map →
      document.IsValid ∧ List.Forall₂ Led.IsOf document map.leds := by
  have hnil : Document.IsFaultless [] := by constructor <;> simp [Document.assignments]
  obtain ⟨herror, hok⟩ := readSections_verdict document hnil .nil
  unfold ofDocument Document.FirstFault
  simp only [bind, Except.bind, ← herror]
  cases hread : readSections [] document with
  | error first =>
    refine ⟨fun error => ⟨fun h => .inr ?_, ?_⟩, fun map h => by cases h⟩
    · cases h
      rfl
    · rintro (⟨rfl, _⟩ | h)
      · cases hread
      · cases h
        rfl
  | ok leds =>
    obtain ⟨hleds, hfaultless⟩ := hok leds hread
    simp only
    split
    · next hempty =>
      subst hempty
      cases hleds
      refine ⟨fun error => ⟨fun h => ?_, ?_⟩, fun map h => by cases h⟩
      · cases h
        exact .inl ⟨rfl, rfl⟩
      · rintro (⟨_, rfl⟩ | h)
        · rfl
        · cases h
    · next hne =>
      refine ⟨fun error => ⟨fun h => (by cases h), ?_⟩, fun map h => ?_⟩
      · rintro (⟨rfl, _⟩ | h)
        · cases hleds
          exact absurd rfl hne
        · cases h
      · cases h
        refine ⟨⟨?_, hfaultless⟩, hleds⟩
        rintro rfl
        cases hleds
        exact hne rfl

theorem ofText_of_read {text : String} {document : Document}
    (hread : Document.read? text = some document) : ofText text = ofDocument document := by
  rw [ofText, hread]

/-- **Configurations are judged as they are meant.** A text that can be read describes a channel map
    exactly when its document is valid, and the map then has an LED for each section and a channel
    for each entry, in order. Any other text is refused for the first fault of its document; that
    there are no LEDs is the fault of the empty one. -/
theorem ofText_valid_or_first_fault {text : String} {document : Document}
    (hread : Document.read? text = some document) :
    ((∃ map, ofText text = .ok map) ↔ document.IsValid) ∧
    (∀ map, ofText text = .ok map → List.Forall₂ Led.IsOf document map.leds) ∧
    (∀ error, ofText text = .error error ↔ document.FirstFault error) ∧
    (ofText text = .error .noLeds ↔ document = []) := by
  obtain ⟨herror, hok⟩ := ofDocument_verdict document
  rw [ofText_of_read hread]
  refine ⟨⟨?_, ?_⟩, fun map hmap => (hok map hmap).2, herror, ?_⟩
  · rintro ⟨map, hmap⟩
    exact (hok map hmap).1
  · rintro ⟨hne, hfaultless⟩
    cases hresult : ofDocument document with
    | ok map => exact ⟨map, rfl⟩
    | error error =>
      rcases (herror error).1 hresult with ⟨hempty, _⟩ | hfault
      · exact absurd hempty hne
      · exact absurd hfaultless hfault.not_isFaultless
  · rw [herror]
    constructor
    · rintro (⟨hempty, _⟩ | hfault)
      · exact hempty
      · -- no other fault has this error
        cases hfault with
        | entry between led earlier key datum later after _ hrest hfaultless hfault => cases hfault
    · intro hempty
      exact .inl ⟨hempty, rfl⟩

/-- The second section takes the pin of the first; that its last key is no letter comes too late. -/
def sharedPin : String := "[A]\nr = 1\n[B]\nR = 2\ng = 1\nblue = 3\n"

theorem ofText_valid_or_first_fault_shared :
    ∃ document, Document.read? sharedPin = some document ∧ ¬ document.IsValid ∧
      document.FirstFault (.duplicatePin ⟨1⟩ "A.r" "B.g") := by
  have hreadable : (Document.read? sharedPin).isSome = true := by decide +kernel
  have herror : ofText sharedPin = .error (.duplicatePin ⟨1⟩ "A.r" "B.g") := by decide +kernel
  obtain ⟨document, hread⟩ := Option.isSome_iff_exists.1 hreadable
  obtain ⟨hvalid, _, hfault, _⟩ := ofText_valid_or_first_fault hread
  refine ⟨document, hread, fun h => ?_, (hfault _).1 herror⟩
  obtain ⟨map, hmap⟩ := hvalid.2 h
  rw [herror] at hmap
  cases hmap

end ChannelMap

end LedSequencer
