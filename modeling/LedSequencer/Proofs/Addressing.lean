import LedSequencer.Proofs.Composition
import LedSequencer.Proofs.Effects
import LedSequencer.Proofs.MappedPins
import LedSequencer.Proofs.SoundMaps

/-! # What lines address

  A session keeps track of the selected LED from one accepted line to the next. There
  always is an LED at the place that it keeps, it is the one that was named last, and a
  line switches no pin of an LED that was neither selected before nor named in the line
  (`session_keeps_to_addressed`).

  * **Selection**: the place after tokens, from the last name that is known.
  * **Drafts**: what a token appends to a line under way, and which LED it is for.
  * **Sessions**: which lines were accepted, and what they leave selected.
-/

namespace LedSequencer

/-! ### Selection -/

/-- The name that a token selects, when an LED has it. -/
def Token.knownName? (map : ChannelMap) : Token → Option String
  | .select name => if (map.find? name).isSome then some name else none
  | _ => none

/-- The names among tokens that LEDs have, in order. -/
def knownNames (map : ChannelMap) (ts : List Token) : List String :=
  ts.filterMap (Token.knownName? map)

section Selection

variable {map : ChannelMap}

theorem Token.knownName?_eq_some_iff {t : Token} {name : String} :
    t.knownName? map = some name ↔ t = .select name ∧ ∃ k, map.find? name = some k := by
  cases t with
  | select other =>
    have hknown : (∃ k, map.find? other = some k) ↔ (map.find? other).isSome = true :=
      Option.isSome_iff_exists.symm
    by_cases h : (map.find? other).isSome = true
    · simp only [Token.knownName?, if_pos h, Option.some.injEq, Token.select.injEq]
      constructor
      · intro heq
        rw [← heq]
        exact ⟨rfl, hknown.2 h⟩
      · intro heq
        exact heq.1
    · simp only [Token.knownName?, if_neg h, Token.select.injEq]
      constructor
      · intro heq
        cases heq
      · intro heq
        obtain ⟨rfl, hfound⟩ := heq
        exact absurd (hknown.1 hfound) h
  | allOff | pause | channels | unknown => simp [Token.knownName?]

theorem mem_knownNames_iff {ts : List Token} {name : String} :
    name ∈ knownNames map ts ↔ .select name ∈ ts ∧ ∃ k, map.find? name = some k := by
  unfold knownNames
  simp only [List.mem_filterMap, Token.knownName?_eq_some_iff]
  constructor
  · intro h
    obtain ⟨t, ht, rfl, hfound⟩ := h
    exact ⟨ht, hfound⟩
  · intro h
    exact ⟨.select name, h.1, rfl, h.2⟩

theorem tokenLed_eq (map : ChannelMap) (led : Nat) (t : Token) :
    tokenLed map led t = ((t.knownName? map).bind map.find?).getD led := by
  cases t with
  | select name => cases h : map.find? name <;> simp [tokenLed, Token.knownName?, h]
  | allOff | pause | channels | unknown => rfl

/-- The last name that is known decides. -/
theorem lineLed_eq (map : ChannelMap) (led : Nat) (ts : List Token) :
    lineLed map led ts = ((knownNames map ts).getLast?.bind map.find?).getD led := by
  induction ts generalizing led with
  | nil => rfl
  | cons t rest ih =>
    have hcons : knownNames map (t :: rest) = (t.knownName? map).toList ++ knownNames map rest := by
      unfold knownNames
      cases h : t.knownName? map <;> simp [h]
    show lineLed map (tokenLed map led t) rest = _
    rw [ih, hcons, List.getLast?_append, tokenLed_eq]
    cases hlast : (knownNames map rest).getLast? with
    | none => cases t.knownName? map <;> rfl
    | some name =>
      -- a later name that is known counts, whatever was selected before
      obtain ⟨k, hk⟩ := (mem_knownNames_iff.1 (List.mem_of_getLast? hlast)).2
      simp [hk]

/-- Nothing changes as long as no name is known. -/
theorem lineLed_of_knownNames_nil {led : Nat} {ts : List Token} (h : knownNames map ts = []) :
    lineLed map led ts = led := by
  rw [lineLed_eq, h]
  rfl

/-- The LED that was named last is selected. -/
theorem led?_lineLed_of_last {led : Nat} {ts : List Token} {name : String}
    (h : (knownNames map ts).getLast? = some name) :
    ∃ l, map.led? (lineLed map led ts) = some l ∧ l.name = name := by
  obtain ⟨k, hk⟩ := (mem_knownNames_iff.1 (List.mem_of_getLast? h)).2
  have hled : lineLed map led ts = k := by
    rw [lineLed_eq, h]
    simp [hk]
  rw [hled]
  exact ChannelMap.led?_of_find? hk

/-- There is an LED at the place that is selected, if there was one before. -/
theorem led?_lineLed {led : Nat} {l : Led} (h : map.led? led = some l) (ts : List Token) :
    ∃ l', map.led? (lineLed map led ts) = some l' := by
  cases hlast : (knownNames map ts).getLast? with
  | none =>
    rw [lineLed_of_knownNames_nil (List.getLast?_eq_none_iff.1 hlast)]
    exact ⟨l, h⟩
  | some name =>
    obtain ⟨l', hl', _⟩ := led?_lineLed_of_last hlast
    exact ⟨l', hl'⟩

/-- Tokens leave the place that was selected, or one that a selector among them names. -/
theorem lineLed_eq_or (map : ChannelMap) (led : Nat) (ts : List Token) :
    lineLed map led ts = led ∨
      ∃ name, .select name ∈ ts ∧ map.find? name = some (lineLed map led ts) := by
  cases hlast : (knownNames map ts).getLast? with
  | none => exact .inl (lineLed_of_knownNames_nil (List.getLast?_eq_none_iff.1 hlast))
  | some name =>
    obtain ⟨hmem, k, hk⟩ := mem_knownNames_iff.1 (List.mem_of_getLast? hlast)
    have hled : lineLed map led ts = k := by
      rw [lineLed_eq, hlast]
      simp [hk]
    exact .inr ⟨name, hmem, hled ▸ hk⟩

end Selection

/-! ### Drafts -/

/-- Operations that find a place are stored at the end. -/
theorem Sequence.toList_body_extend {s : Sequence} {ops : List Operation} (hops : .rewind ∉ ops)
    (hlength : s.length + ops.length ≤ capacity) :
    (s.extend ops).body.toList = s.body.toList ++ ops := by
  induction ops generalizing s with
  | nil => simp
  | cons op rest ih =>
    rw [List.mem_cons, not_or] at hops
    rw [List.length_cons] at hlength
    have hroom : s.length < capacity := by omega
    obtain ⟨t, ht, hbody⟩ := push_of_lt (fun h => hops.1 h.symm) hroom
    have hlonger : t.length = s.length + 1 := by simp [length, hbody]
    rw [extend_cons_of_push ht, ih hops.2 (by omega), hbody]
    simp

namespace Draft

/-- The draft that a line begins with. -/
def start (led : Nat) : Draft := { sequence := .idle, led, notes := #[] }

variable {map : ChannelMap} {d d' : Draft} {ts : List Token}

/-- What tokens have made of a draft. -/
theorem of_foldlM_token (h : ts.foldlM (token map) d = .ok d') :
    d'.led = lineLed map d.led ts ∧ d'.sequence.body.toList =
      d.sequence.body.toList ++ Fate.operations (lineFates map d.led ts) := by
  have hrewind := rewind_notMem_lineFates map d.led ts
  rw [foldlM_token, foldlM_meet hrewind] at h
  split at h
  · next hlength =>
    cases h
    exact ⟨rfl, Sequence.toList_body_extend hrewind hlength⟩
  · cases h

/-- What one token has made of a draft. -/
theorem of_token {t : Token} (h : d.token map t = .ok d') :
    d'.led = tokenLed map d.led t ∧ d'.sequence.body.toList =
      d.sequence.body.toList ++ Fate.operations (tokenFates map d.led t) := by
  have hsingle : [t].foldlM (token map) d = .ok d' := by
    rw [List.foldlM_cons, h]
    rfl
  have hdone := of_foldlM_token hsingle
  simp only [lineFates, List.append_nil] at hdone
  exact hdone

/-- What is stored stays at its place. -/
theorem getElem?_of_foldlM_token (h : ts.foldlM (token map) d = .ok d') {i : Nat}
    (hi : i < d.sequence.body.size) : d'.sequence.body[i]? = d.sequence.body[i]? := by
  have hi' : i < d.sequence.body.toList.length := by rwa [Array.length_toList]
  rw [← Array.getElem?_toList, (of_foldlM_token h).2, List.getElem?_append_left hi',
    Array.getElem?_toList]

/-- Among tokens that have been worked through, the token `t` comes right after `earlier` and
    appends what is at the place `i`: the draft before it is shorter, and the one after it is
    not. -/
structure Appends (map : ChannelMap) (d : Draft) (ts : List Token) (i : Nat) (earlier : List Token)
    (t : Token) (before after : Draft) : Prop where
  /-- The token comes right after the earlier ones. -/
  isPrefix : earlier ++ [t] <+: ts
  /-- The earlier tokens lead to the draft before. -/
  reaches : earlier.foldlM (token map) d = .ok before
  /-- The token leads on to the draft after. -/
  goes : before.token map t = .ok after
  /-- The draft before ends in front of the place. -/
  le : before.sequence.body.size ≤ i
  /-- The draft after goes beyond the place. -/
  lt : i < after.sequence.body.size

/-- What has been stored was appended by a token. -/
theorem exists_appends (h : ts.foldlM (token map) d = .ok d') {i : Nat}
    (hlow : d.sequence.body.size ≤ i) (hhigh : i < d'.sequence.body.size) :
    ∃ earlier t before after, Appends map d ts i earlier t before after ∧
      d'.sequence.body[i]? = after.sequence.body[i]? := by
  -- on the tokens from the front: the place lies in what the first one appends, or further on
  induction ts generalizing d with
  | nil =>
    cases h
    omega
  | cons t rest ih =>
    rw [List.foldlM_cons] at h
    cases hnext : d.token map t with
    | error notes =>
      rw [hnext] at h
      cases h
    | ok next =>
      rw [hnext] at h
      have hrest : rest.foldlM (token map) next = .ok d' := h
      by_cases hi : i < next.sequence.body.size
      · -- the first token goes beyond the place
        refine ⟨[], t, d, next, ⟨?_, rfl, hnext, hlow, hi⟩, getElem?_of_foldlM_token hrest hi⟩
        exact List.prefix_append [t] rest
      · obtain ⟨earlier, t', before, after, happends, hsame⟩ := ih hrest (Nat.le_of_not_lt hi)
        refine ⟨t :: earlier, t', before, after, ⟨?_, ?_, ?_, ?_, ?_⟩, hsame⟩
        · exact (List.prefix_cons_inj t).2 happends.isPrefix
        · rw [List.foldlM_cons, hnext]
          exact happends.reaches
        · exact happends.goes
        · exact happends.le
        · exact happends.lt

/-- What a token appends is for the LED that is selected. -/
theorem mem_pins_of_token {t : Token} (h : d.token map t = .ok d') {i : Nat}
    (hlow : d.sequence.body.size ≤ i) {op : Operation} (hop : d'.sequence.body[i]? = some op)
    {pin : Pin} {level : Level} (ht : op.transition = some (pin, level)) :
    ∃ l, map.led? d.led = some l ∧ pin ∈ l.pins := by
  have hlow' : d.sequence.body.toList.length ≤ i := by rwa [Array.length_toList]
  rw [← Array.getElem?_toList, (of_token h).2, List.getElem?_append_right hlow'] at hop
  exact mem_pins_of_mem_tokenFates (List.mem_of_getElem? hop) ht

end Draft

/-- An accepted line is a draft that all tokens have been worked into. -/
theorem exists_draft_of_compile {line : String} {map : ChannelMap} {led : Nat} {c : Compiled}
    (h : compile line map led = .ok c) : ∃ d, (tokens line).foldlM (Draft.token map) (.start led) =
      .ok d ∧ c = { sequence := d.sequence, led := d.led } := by
  have hstart : (Draft.start led).notes = #[] := rfl
  unfold compile compilation at h
  simp only at h
  split at h
  · next d hd =>
    cases h
    exact ⟨d, hd, rfl⟩
  · cases h

/-- What an accepted line switches was appended by a token that an LED was selected for: the one
    that was selected at first, or one that a selector before the token names. -/
theorem exists_appends_of_compile {line : String} {map : ChannelMap} (hsound : map.IsSound)
    {led : Nat} {c : Compiled} (h : compile line map led = .ok c) {i : Nat} {op : Operation}
    (hop : c.sequence.body[i]? = some op) {pin : Pin} {level : Level}
    (ht : op.transition = some (pin, level)) {k : Nat} {l : Led} (hk : map.led? k = some l)
    (hpin : pin ∈ l.pins) :
    ∃ earlier t before after,
      Draft.Appends map (.start led) (tokens line) i earlier t before after ∧
      (k = led ∨ ∃ name, .select name ∈ earlier ∧ map.find? name = some k) := by
  obtain ⟨d, hd, rfl⟩ := exists_draft_of_compile h
  obtain ⟨hi, _⟩ := Array.getElem?_eq_some_iff.1 hop
  obtain ⟨earlier, t, before, after, happends, hsame⟩ := Draft.exists_appends hd (Nat.zero_le i) hi
  have hop' : after.sequence.body[i]? = some op := hsame ▸ hop
  obtain ⟨l', hl', hpin'⟩ := Draft.mem_pins_of_token happends.goes happends.le hop' ht
  -- the pin belongs to one LED only, and so the selected one is meant
  have hled : before.led = lineLed map led earlier := (Draft.of_foldlM_token happends.reaches).1
  have hkled : k = lineLed map led earlier := (hsound.eq_of_mem_pins hk hl' hpin hpin').trans hled
  refine ⟨earlier, t, before, after, happends, ?_⟩
  rcases lineLed_eq_or map led earlier with hfirst | ⟨name, hmem, hfind⟩
  · exact .inl (hkled.trans hfirst)
  · exact .inr ⟨name, hmem, hkled ▸ hfind⟩

/-! ### Sessions -/

/-- The lines among those handled that were accepted, given what came of each. -/
def acceptedLines (lines : List String) (results : List (Except CompileError Unit)) :
    List String :=
  ((lines.zip results).filter fun p => p.2.isOk).map Prod.fst

namespace Session

/-- Handles lines in order, and answers what came of each. -/
def handleEach : Session → List String → Activity (List (Except CompileError Unit) × Session)
  | s, [] => pure ([], s)
  | s, line :: rest => do
    let handled ← s.handleLine line
    let more ← handled.2.handleEach rest
    pure (handled.1 :: more.1, more.2)

variable {σ : Type} [PinDriver σ]

theorem run_handleEach_cons (s : Session) (line : String) (rest : List String) (w : World σ) :
    let next := (w.run (s.handleLine line)).2
    (w.run (s.handleEach (line :: rest))).1 =
      ((s.afterLine line).1 :: (next.run ((s.afterLine line).2.handleEach rest)).1.1,
        (next.run ((s.afterLine line).2.handleEach rest)).1.2) := by
  intro next
  have hline := (World.passed_handleLine s line w).1
  unfold World.run at hline
  simp only [handleEach, World.run, Dialogue.run_bind, hline]
  rfl

/-- What lines leave selected is what the tokens of the accepted ones leave. -/
theorem led_run_handleEach (s : Session) (lines : List String) (w : World σ) :
    let handled := (w.run (s.handleEach lines)).1
    handled.2.map = s.map ∧ handled.2.led =
      lineLed s.map s.led ((acceptedLines lines handled.1).flatMap tokens) := by
  induction lines generalizing s w with
  | nil => exact ⟨rfl, rfl⟩
  | cons line rest ih =>
    intro handled
    obtain ⟨hmap, hled⟩ := ih (s.afterLine line).2 (w.run (s.handleLine line)).2
    have hhandled : handled = _ := run_handleEach_cons s line rest w
    rw [hhandled]
    refine ⟨hmap.trans (s.map_afterLine line), hled.trans ?_⟩
    rw [map_afterLine]
    cases hcompile : compile line s.map s.led with
    | error error =>
      -- a rejected line is passed over
      rw [afterLine_of_error hcompile]
      rfl
    | ok compiled =>
      obtain ⟨d, hd, rfl⟩ := exists_draft_of_compile hcompile
      have hdone : d.led = lineLed s.map s.led (tokens line) := (Draft.of_foldlM_token hd).1
      rw [afterLine_of_ok hcompile]
      have haccepted (results : List (Except CompileError Unit)) :
          acceptedLines (line :: rest) (.ok () :: results) =
            line :: acceptedLines rest results := rfl
      rw [haccepted, List.flatMap_cons, lineLed_append, ← hdone]

/-- A line that is rejected leaves the active sequence as it is, and the sequence of one that is
    accepted is made active. -/
theorem active_handleLine (s : Session) (line : String) (w : World σ) :
    let next := w.run (s.handleLine line)
    (∀ error, next.1.1 = .error error → next.2.active = w.active) ∧
      (next.1.1 = .ok () → ∃ c, compile line s.map s.led = .ok c ∧
        next.2.active = w.active.next c.sequence) := by
  intro next
  obtain ⟨hanswer, hpassed⟩ := World.passed_handleLine s line w
  have hactive := hpassed.active
  have hnext : next.1 = s.afterLine line := hanswer
  rw [hnext]
  cases hcompile : compile line s.map s.led with
  | error error =>
    rw [effects_of_error hcompile] at hactive
    rw [afterLine_of_error hcompile]
    constructor
    · intro _ _
      exact hactive
    · intro hok
      cases hok
  | ok compiled =>
    rw [effects_of_ok hcompile] at hactive
    rw [afterLine_of_ok hcompile]
    constructor
    · intro error herror
      cases herror
    · intro _
      exact ⟨compiled, rfl, hactive⟩

/-- **Lines keep to the LEDs that they address.** A session over a channel map that was read has an
    LED selected after any lines: the one that was named last among the accepted lines, by a name
    that an LED has, and the first one when none was. While the tokens of a further line are worked
    through, there is an LED at the selected place all the time, so no word for a selected LED is
    without one. If the line is rejected, the active sequence stays; if it is accepted, its sequence
    is made active, and whatever in there switches a pin of an LED was appended by a token when this
    LED was already selected as the line began, or had been named earlier in the line. -/
theorem session_keeps_to_addressed {text : String} {map : ChannelMap}
    (hmap : ChannelMap.ofText text = .ok map) (w : World σ) (lines : List String) :
    let handled := (w.run ((Session.start map).handleEach lines)).1
    let s := handled.2
    let named := (acceptedLines lines handled.1).flatMap fun line => knownNames map (tokens line)
    (named = [] → s.led = ChannelMap.defaultLed) ∧
    (∀ name, named.getLast? = some name → ∃ l, map.led? s.led = some l ∧ l.name = name) ∧
    (∃ l, map.led? s.led = some l) ∧
    ∀ (line : String) (now : World σ),
      (∀ earlier d, earlier <+: tokens line →
        earlier.foldlM (Draft.token map) (.start s.led) = .ok d → ∃ l, map.led? d.led = some l) ∧
      let next := now.run (s.handleLine line)
      (∀ error, next.1.1 = .error error → next.2.active = now.active) ∧
      (next.1.1 = .ok () → ∃ q, next.2.active = now.active.next q ∧
        ∀ i op pin level k l, q.body[i]? = some op → op.transition = some (pin, level) →
          map.led? k = some l → pin ∈ l.pins →
          ∃ earlier t before after,
            Draft.Appends map (.start s.led) (tokens line) i earlier t before after ∧
            (k = s.led ∨ ∃ name, .select name ∈ earlier ∧ map.find? name = some k)) := by
  intro handled s named
  have hsound := ChannelMap.isSound_of_ofText hmap
  obtain ⟨first, hfirst⟩ := hsound.exists_default
  obtain ⟨hsmap, hsled⟩ := led_run_handleEach (Session.start map) lines w
  have hnamed : knownNames map ((acceptedLines lines handled.1).flatMap tokens) = named := by
    unfold knownNames
    exact List.filterMap_flatMap
  have hselected : ∃ l, map.led? s.led = some l := hsled ▸ led?_lineLed hfirst _
  refine ⟨?_, ?_, hselected, ?_⟩
  · intro hnil
    exact hsled.trans (lineLed_of_knownNames_nil (hnamed.trans hnil))
  · intro name hlast
    rw [← hnamed] at hlast
    exact hsled ▸ led?_lineLed_of_last hlast
  intro line now
  constructor
  · intro earlier d _ hd
    obtain ⟨l, hl⟩ := hselected
    have hled : d.led = lineLed map s.led earlier := (Draft.of_foldlM_token hd).1
    rw [hled]
    exact led?_lineLed hl earlier
  obtain ⟨hrejected, haccepted⟩ := active_handleLine s line now
  refine ⟨hrejected, ?_⟩
  intro hok
  obtain ⟨c, hcompile, hactive⟩ := haccepted hok
  have hsmap' : s.map = map := hsmap
  rw [hsmap'] at hcompile
  refine ⟨c.sequence, hactive, ?_⟩
  intro i op pin level k l hop ht hk hpin
  exact exists_appends_of_compile hsound hcompile hop ht hk hpin

/-- Of two lines the first selects the second LED, and a name that no LED has changes nothing. What
    the line `R` switches then is a channel of this LED. -/
theorem session_keeps_to_addressed_duo :
    let w := World.start Hardware.nothing
    let s := (w.run ((Session.start duo).handleEach ["R B: C:", "g"])).1.2
    ChannelMap.ofText "[A]\nr = 1\n[B]\ng = 2\nr = 3\n" = .ok duo ∧
      (∃ l, duo.led? s.led = some l ∧ l.name = "B") ∧
      ∃ q, (w.run (s.handleLine "R")).2.active = w.active.next q ∧ q.body[0]? = some (.on ⟨3⟩) ∧
        ∃ earlier t before after,
          Draft.Appends duo (.start s.led) (tokens "R") 0 earlier t before after ∧
          (1 = s.led ∨ ∃ name, .select name ∈ earlier ∧ duo.find? name = some 1) := by
  intro w s
  have hmap : ChannelMap.ofText "[A]\nr = 1\n[B]\ng = 2\nr = 3\n" = .ok duo := by decide +kernel
  have hlast : ((acceptedLines ["R B: C:", "g"]
      (w.run ((Session.start duo).handleEach ["R B: C:", "g"])).1.1).flatMap fun line =>
        knownNames duo (tokens line)).getLast? = some "B" := by decide +kernel
  have hok : (w.run (s.handleLine "R")).1.1 = .ok () := by decide +kernel
  have hbody : (w.run (s.handleLine "R")).2.active.sequence.body[0]? = some (.on ⟨3⟩) := by
    decide +kernel
  obtain ⟨_, hnamed, _, hline⟩ := session_keeps_to_addressed hmap w ["R B: C:", "g"]
  obtain ⟨_, _, haccepted⟩ := hline "R" w
  obtain ⟨q, hq, happended⟩ := haccepted hok
  rw [hq] at hbody
  have hpin : (⟨3⟩ : Pin) ∈ Led.pins duo.leds[1] := by decide
  exact ⟨hmap, hnamed "B" hlast, q, hq, hbody,
    happended 0 (.on ⟨3⟩) ⟨3⟩ .high 1 _ hbody rfl rfl hpin⟩

end Session

end LedSequencer
