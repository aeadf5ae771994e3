import Bibliography.Proofs.Run.Chronicle
import Bibliography.Proofs.Tex.Braces

set_option autoImplicit false

/-! # What arrives in the bibliography

A style tells its text piece by piece, and a newline ends each line (`Event.told`). The pieces wait
until their line is finished; then the line is wrapped and handed to the sink, one wrapped line
after the other (`linePieces`). So the text that was told is between two events what was told up to
the end of the last finished line, and behind it the line that is waiting (`Delivered`). The first
part has the words of the text in the sink, because wrapping keeps words and the first part ends
where a line does.

Braces are checked in a line before it is wrapped. The sink is balanced between two events, but not
while the wrapped lines of one text are handed over: a group may reach from one of them to the next
(`group_halved_in_sink`). What the sink holds then are the lines of texts that pass the check, the
last of them not yet complete (`Sink.Checked`).

Main statement: `written_of_run`.
-/

namespace Bibliography.Style

open Text (words unlines)

/-! ## What is told -/

/-- The text that an event tells: a text that is written, or the newline of a line that the style
finishes. -/
def Event.told (e : Event) : Text :=
  match e.builtin with
  | some .write => (e.before.stack.head?.bind Value.text?).getD []
  | some .newline => ['\n']
  | _ => []

def told (log : List Event) : Text := log.flatMap Event.told

theorem told_concat (log : List Event) (e : Event) : told (log ++ [e]) = told log ++ e.told := by
  simp [told]

theorem told_of_other {b? : Option Builtin} (hb : ∀ b, b? = some b → b ≠ .newline ∧ b ≠ .write)
    (m m' : Machine) : (Event.mk b? m m').told = [] := by
  rw [Event.told]
  split
  · next heq => exact absurd rfl (hb _ heq).2
  · next heq => exact absurd rfl (hb _ heq).1
  · rfl

/-! ## Finished lines -/

/-- A text in which every line is finished. -/
def EndsLine (s : Text) : Prop := s = [] ∨ ∃ t, s = t ++ ['\n']

theorem EndsLine.append {s t : Text} (hs : EndsLine s) (ht : EndsLine t) : EndsLine (s ++ t) := by
  obtain rfl | ⟨t, rfl⟩ := ht
  · simpa using hs
  · exact Or.inr ⟨s ++ t, by simp⟩

theorem endsLine_unlines (lines : List Text) : EndsLine (unlines lines) := by
  induction lines with
  | nil => exact Or.inl rfl
  | cons line lines ih => exact EndsLine.append (Or.inr ⟨line, rfl⟩) ih

/-- Words do not reach over the end of a line. -/
theorem words_append_of_endsLine {s : Text} (hs : EndsLine s) (t : Text) :
    words (s ++ t) = words s ++ words t := by
  obtain rfl | ⟨line, rfl⟩ := hs
  · rfl
  · rw [List.append_assoc, List.singleton_append, Text.words_append_cons (by decide),
      Text.words_append_cons (by decide), Text.words_nil, List.append_nil]

/-! ## Finishing a line -/

/-- The pieces in which the text of a line is handed to the sink: each of the lines into which it is
wrapped, and the newline behind it. -/
def linePieces (o : Options) (text : Text) : List Text :=
  (text.wrap o.maxLineWidth).flatMap fun line => [line, ['\n']]

theorem flatten_linePieces (o : Options) (text : Text) :
    (linePieces o text).flatten = unlines (text.wrap o.maxLineWidth) := by
  rw [linePieces, unlines]
  induction text.wrap o.maxLineWidth with
  | nil => rfl
  | cons line lines ih => simp [ih]

/-- A sink that takes everything takes a piece. -/
theorem emit_of_takesAll {m : Machine} (htakes : m.sink.answers.TakesAll) (piece : Text)
    (s : Scene) : ∃ sink, Run.emit piece s m = .done () { m with sink := sink } ∧
      sink.answers = m.sink.answers ∧ sink.pieces = piece :: m.sink.pieces := by
  refine ⟨{ m.sink with handed := piece :: m.sink.handed, pieces := piece :: m.sink.pieces }, ?_,
    rfl, rfl⟩
  rw [Run.emit, Sink.write, htakes]

/-- A sink that takes everything takes every line. -/
theorem emitLines_of_takesAll {m : Machine} (htakes : m.sink.answers.TakesAll) (lines : List Text)
    (s : Scene) : ∃ sink, Run.emitLines lines s m = .done () { m with sink := sink } ∧
      sink.answers = m.sink.answers ∧
      sink.pieces.reverse = m.sink.pieces.reverse ++ lines.flatMap fun line => [line, ['\n']] := by
  induction lines generalizing m with
  | nil => exact ⟨m.sink, rfl, rfl, by simp⟩
  | cons line lines ih =>
    -- a line and the newline behind it are two pieces
    obtain ⟨sink, hline, hanswers, hpieces⟩ := emit_of_takesAll htakes line s
    obtain ⟨sink', hnewline, hanswers', hpieces'⟩ :=
      emit_of_takesAll (m := { m with sink := sink }) (hanswers ▸ htakes) ['\n'] s
    obtain ⟨sink'', hlines, hanswers'', hpieces''⟩ :=
      ih (m := { m with sink := sink' }) (hanswers'.trans hanswers ▸ htakes)
    refine ⟨sink'', ?_, hanswers''.trans (hanswers'.trans hanswers), ?_⟩
    · simp only [Run.emitLines, Run.bind_apply, hline, hnewline, hlines]
    · simp [hpieces'', hpieces', hpieces]

/-- The machine after a line was finished. -/
structure LineFinished (o : Options) (m m' : Machine) : Prop where
  pending : m'.pending = []
  answers : m'.sink.answers = m.sink.answers
  pieces : m'.sink.pieces.reverse = m.sink.pieces.reverse ++ linePieces o m.output
  checked : o.checkOutputBraces = true → Tex.checkBraces m.output = .ok ()

theorem LineFinished.written {o : Options} {m m' : Machine} (h : LineFinished o m m') :
    m'.sink.written = m.sink.written ++ unlines (m.output.wrap o.maxLineWidth) := by
  rw [Sink.written, h.pieces, List.flatten_append, flatten_linePieces, Sink.written]

/-- A line is finished, or is refused before anything of it is in the sink. -/
theorem newline_of_takesAll {m : Machine} (htakes : m.sink.answers.TakesAll) (s : Scene) :
    (∃ m', Run.newline s m = .done () m' ∧ LineFinished s.options m m') ∨
      ∃ f, Run.newline s m = .failed f { m with pending := [] } := by
  obtain ⟨sink, hlines, hanswers, hpieces⟩ := emitLines_of_takesAll
    (m := { m with pending := [] }) htakes (m.output.wrap s.options.maxLineWidth) s
  have hstart : Run.newline s m = (if s.options.checkOutputBraces then
      (Run.ofExcept ((Tex.checkBraces m.output).mapError (.text .newline)) >>= fun _ =>
        Run.emitLines (m.output.wrap s.options.maxLineWidth))
      else Run.emitLines (m.output.wrap s.options.maxLineWidth)) s { m with pending := [] } := by
    simp only [Run.newline, Run.bind_apply, Run.takeLine, Run.options]
  -- a line that is refused is no longer waiting either
  by_cases hcheck : s.options.checkOutputBraces = true
  · rw [hstart, if_pos hcheck]
    cases hbraces : Tex.checkBraces m.output with
    | ok u =>
      exact Or.inl ⟨{ m with pending := [], sink := sink }, hlines,
        ⟨rfl, hanswers, hpieces, fun _ => hbraces⟩⟩
    | error e => exact Or.inr ⟨_, rfl⟩
  · rw [hstart, if_neg hcheck]
    exact Or.inl ⟨{ m with pending := [], sink := sink }, hlines,
      ⟨rfl, hanswers, hpieces, fun h => absurd h hcheck⟩⟩

/-! ## What the sink holds -/

/-- What was handed over up to a piece of a row that has several parts: some of the parts, and the
first pieces of the next one. -/
theorem exists_of_prefix_flatMap {α β : Type} {f : α → List β} {xs : List α} {ps : List β}
    (h : ps <+: xs.flatMap f) (hps : ps ≠ []) :
    ∃ before x part, before ++ [x] <+: xs ∧ ps = before.flatMap f ++ part ∧ part <+: f x := by
  induction xs generalizing ps with
  | nil => exact absurd (List.prefix_nil.1 h) hps
  | cons x xs ih =>
    rw [List.flatMap_cons] at h
    obtain hfirst | ⟨rest, rfl⟩ := List.prefix_or_prefix_of_prefix h (List.prefix_append _ _)
    · exact ⟨[], x, ps, ⟨xs, rfl⟩, rfl, hfirst⟩
    · by_cases hempty : rest = []
      · exact ⟨[], x, f x, ⟨xs, rfl⟩, by simp [hempty], List.prefix_refl _⟩
      · have hrest := (List.prefix_append_right_inj _).1 h
        obtain ⟨before, y, part, hbefore, rfl, hpart⟩ := ih hrest hempty
        exact ⟨x :: before, y, part, List.cons_prefix_cons.2 ⟨rfl, hbefore⟩, by simp, hpart⟩

/-- The sink was handed texts that pass the check of braces, each of them line by line. -/
def Sink.Filled (o : Options) (sink : Sink) : Prop :=
  ∃ texts : List Text, sink.pieces.reverse = texts.flatMap (linePieces o) ∧
    ∀ text ∈ texts, Tex.checkBraces text = .ok ()

/-- The text in the sink passes the check of braces. At every moment until now the sink held the
lines of texts that pass it, and perhaps the first pieces of one more; before these pieces the sink
passed the check, and it passes it again when the last of them is there. -/
structure Sink.Checked (o : Options) (sink : Sink) : Prop where
  whole : Tex.checkBraces sink.written = .ok ()
  parts : ∀ ps, ps <+: sink.pieces.reverse → ∃ before text part,
    ps = before.flatMap (linePieces o) ++ part ∧ part <+: linePieces o text ∧
      Tex.checkBraces text = .ok () ∧
      Tex.checkBraces (before.flatMap (linePieces o)).flatten = .ok () ∧
      Tex.checkBraces ((before ++ [text]).flatMap (linePieces o)).flatten = .ok ()

/-- The lines into which texts are wrapped are balanced together if the texts are. -/
theorem checkBraces_flatten_linePieces {o : Options} {texts : List Text}
    (h : ∀ text ∈ texts, Tex.checkBraces text = .ok ()) :
    Tex.checkBraces (texts.flatMap (linePieces o)).flatten = .ok () := by
  rw [Tex.checkBraces_eq_ok_iff, ← List.flatMap_id, List.flatMap_assoc]
  refine Tex.isBalanced_flatMap fun text htext => ?_
  rw [List.flatMap_id, flatten_linePieces, Tex.isBalanced_unlines_wrap]
  exact (Tex.checkBraces_eq_ok_iff text).1 (h text htext)

theorem Sink.Filled.checked {o : Options} {sink : Sink} (h : sink.Filled o) :
    sink.Checked o := by
  obtain ⟨texts, hpieces, htexts⟩ := h
  refine ⟨?_, fun ps hps => ?_⟩
  · rw [Sink.written, hpieces]
    exact checkBraces_flatten_linePieces htexts
  · by_cases hempty : ps = []
    · subst hempty
      refine ⟨[], [], [], rfl, List.nil_prefix, rfl, rfl, ?_⟩
      exact checkBraces_flatten_linePieces fun _ ht => List.mem_singleton.1 ht ▸ rfl
    · rw [hpieces] at hps
      obtain ⟨before, text, part, hbefore, heq, hpart⟩ := exists_of_prefix_flatMap hps hempty
      have hall : ∀ t ∈ before ++ [text], Tex.checkBraces t = .ok () :=
        fun t ht => htexts t (hbefore.subset ht)
      obtain ⟨hdone, hnext⟩ := List.forall_mem_append.1 hall
      exact ⟨before, text, part, heq, hpart, hnext text List.mem_cons_self,
        checkBraces_flatten_linePieces hdone, checkBraces_flatten_linePieces hall⟩

/-! ## What has arrived -/

/-- Of the text that was told, the words up to the end of a line are in the sink, and the rest is
the line that waits. -/
structure Delivered (o : Options) (log : List Event) (m : Machine) : Prop where
  takes : m.sink.answers.TakesAll
  lines : EndsLine m.sink.written
  arrived : ∃ finished, told log = finished ++ m.output ∧ EndsLine finished ∧
    words finished = words m.sink.written
  filled : o.checkOutputBraces = true → m.sink.Filled o

namespace Delivered

variable {o : Options} {log : List Event} {m m' : Machine}

/-- Wrapping and the newlines behind the lines keep the words of the line that is finished. -/
theorem words_of_finished (h : Delivered o log m) (hfinished : LineFinished o m m') :
    words m'.sink.written = words (told log) := by
  obtain ⟨finished, htold, hends, hwords⟩ := h.arrived
  calc words m'.sink.written
      = words m.sink.written ++ words (unlines (m.output.wrap o.maxLineWidth)) := by
        rw [hfinished.written, words_append_of_endsLine h.lines]
    _ = words finished ++ words m.output := by rw [hwords, Text.words_unlines_wrap]
    _ = words (told log) := by rw [htold, words_append_of_endsLine hends]

/-- The line that is finished passed the check, so the sink holds one more such text. -/
theorem filled_of_finished (h : Delivered o log m) (hfinished : LineFinished o m m')
    (hcheck : o.checkOutputBraces = true) : m'.sink.Filled o := by
  obtain ⟨texts, hpieces, htexts⟩ := h.filled hcheck
  refine ⟨texts ++ [m.output], ?_, ?_⟩
  · rw [hfinished.pieces, hpieces, List.flatMap_append, List.flatMap_singleton]
  · exact List.forall_mem_append.2 ⟨htexts, List.forall_mem_singleton.2 (hfinished.checked hcheck)⟩

theorem newline (h : Delivered o log m) (hfinished : LineFinished o m m') :
    Delivered o (log ++ [⟨some .newline, m, m'⟩]) m' where
  takes := hfinished.answers ▸ h.takes
  lines := hfinished.written ▸ h.lines.append (endsLine_unlines _)
  arrived := by
    refine ⟨told log ++ ['\n'], ?_, Or.inr ⟨_, rfl⟩, ?_⟩
    · rw [told_concat, Machine.output, hfinished.pending]
      simp [Event.told]
    · rw [Text.words_append_cons (by decide), Text.words_nil, List.append_nil,
        h.words_of_finished hfinished]
  filled := h.filled_of_finished hfinished

theorem write (h : Delivered o log m) {v : Value} {vs : List Value} {t : Text}
    (hstack : m.stack = v :: vs) (ht : v.text? = some t) :
    Delivered o (log ++ [⟨some .write, m, { m with stack := vs, pending := t :: m.pending }⟩])
      { m with stack := vs, pending := t :: m.pending } where
  takes := h.takes
  lines := h.lines
  arrived := by
    obtain ⟨finished, htold, hends, hwords⟩ := h.arrived
    refine ⟨finished, ?_, hends, hwords⟩
    have houtput : ({ m with stack := vs, pending := t :: m.pending } : Machine).output =
        m.output ++ t := by simp [Machine.output]
    rw [told_concat, htold, houtput, List.append_assoc]
    simp [Event.told, hstack, ht]
  filled := h.filled

theorem quiet (h : Delivered o log m) (hsame : m.SameOutput m') {b? : Option Builtin}
    (hb : ∀ b, b? = some b → b ≠ .newline ∧ b ≠ .write) :
    Delivered o (log ++ [⟨b?, m, m'⟩]) m' where
  takes := hsame.sink ▸ h.takes
  lines := by simpa only [hsame.sink] using h.lines
  arrived := by
    have houtput : m'.output = m.output := by rw [Machine.output, hsame.pending, Machine.output]
    rw [told_concat, told_of_other hb, List.append_nil, houtput, hsame.sink]
    exact h.arrived
  filled := by simpa only [hsame.sink] using h.filled

end Delivered

/-- Before and after every event the sink holds texts that pass the check, and what was told has
arrived. -/
theorem watch_delivered (o : Options) :
    Watch .all o (Delivered o) fun m => o.checkOutputBraces = true → m.sink.Filled o where
  moment h hsame _ := by simpa only [hsame.sink] using h.filled
  quiet hb h hsame := h.quiet hsame hb
  write h hstack ht := h.write hstack ht
  newline {log s m m'} ho h hrun := by
    subst ho
    obtain ⟨m'', hdone, hfinished⟩ | ⟨f, hfailed⟩ := newline_of_takesAll h.takes s
    · cases hdone.symm.trans hrun
      exact h.newline hfinished
    · cases hfailed.symm.trans hrun
  refused {log s m m' f} ho h _ hrun := by
    obtain ⟨m'', hdone, -⟩ | ⟨f', hfailed⟩ := newline_of_takesAll h.takes s
    · cases hdone.symm.trans hrun
    · cases hfailed.symm.trans hrun
      exact h.filled

/-! ## Styles -/

/-- The machine that no command has changed has told nothing and written nothing. -/
theorem delivered_fresh (o : Options) (source : Source) {answers : SinkAnswers}
    (htakes : answers.TakesAll) :
    Delivered o [] (Interpreter.fresh o source answers).machine where
  takes := htakes
  lines := Or.inl rfl
  arrived := ⟨[], rfl, Or.inl rfl, rfl⟩
  filled _ := ⟨[], rfl, List.forall_mem_nil _⟩

/-- Finishing the last line delivers what is left. -/
theorem Delivered.flush {log : List Event} {i : Interpreter}
    (h : Delivered i.options log i.machine) :
    (i.options.checkOutputBraces = true → i.flush.2.machine.sink.Filled i.options) ∧
      ∀ i', i.flush = (.ok (), i') → words i'.machine.sink.written = words (told log) := by
  rw [Interpreter.flush]
  split
  · next hempty =>
    refine ⟨h.filled, ?_⟩
    rintro i' ⟨⟩
    obtain ⟨finished, htold, -, hwords⟩ := h.arrived
    rw [htold, hempty, List.append_nil, hwords]
  · obtain ⟨m', hdone, hfinished⟩ | ⟨f, hfailed⟩ := newline_of_takesAll h.takes (i.scene none)
    · simp only [hdone]
      refine ⟨h.filled_of_finished hfinished, ?_⟩
      rintro i' ⟨⟩
      exact h.words_of_finished hfinished
    · simp only [hfailed]
      exact ⟨h.filled, fun _ hi => by cases hi⟩

/-- **Texts that are balanced go to the bibliography line by line, and nothing of them is lost.** A
style runs on a fresh interpreter whose sink takes everything. If braces are checked, the text in
the sink passes the check before and after every event of the run, and also when the run has failed.
Between two pieces that the sink takes in one event, it holds the lines of texts that pass the
check, and the first pieces of one more such text (`Sink.Checked`). If the run ends well, the words
in the sink are the words that the style told. -/
theorem written_of_run (fuel : Nat) (o : Options) (source : Source) {answers : SinkAnswers}
    (htakes : answers.TakesAll) (p : Program) (citations bibFiles : List Text) :
    (o.checkOutputBraces = true →
      (∀ e ∈ (Interpreter.fresh o source answers).history fuel p citations bibFiles,
        e.before.sink.Checked o ∧ e.after.sink.Checked o) ∧
      ∀ r i', (Interpreter.fresh o source answers).run fuel p citations bibFiles = some (r, i') →
        i'.machine.sink.Checked o) ∧
    ∀ i', (Interpreter.fresh o source answers).run fuel p citations bibFiles = some (.ok (), i') →
      words i'.machine.sink.written =
        words (told ((Interpreter.fresh o source answers).history fuel p citations bibFiles)) := by
  set i : Interpreter := { Interpreter.fresh o source answers with citations := citations } with hi
  obtain ⟨hpasses, hoptions⟩ := (watch_delivered o).runCommands Vocabulary.closed_all
    (Interpreter.Confined.all bibFiles p i) rfl (delivered_fresh o source htakes) fuel
  have hends := hpasses.ends
  have hmoments : o.checkOutputBraces = true → ∀ e ∈ Interpreter.commandsEvents fuel bibFiles p i,
      e.before.sink.Checked o ∧ e.after.sink.Checked o :=
    fun hcheck e he => (hpasses.moments e he).imp (fun h => (h hcheck).checked)
      fun h => (h hcheck).checked
  rw [Interpreter.history, Interpreter.run, ← hi]
  cases hrun : Interpreter.runCommands fuel bibFiles p i with
  | none =>
    dsimp only
    rw [List.append_nil]
    exact ⟨fun hcheck => ⟨hmoments hcheck, fun _ _ h => by cases h⟩, fun _ h => by cases h⟩
  | some q =>
    rw [hrun] at hends
    obtain ⟨r, i'⟩ := q
    cases r with
    | error e =>
      dsimp only
      rw [List.append_nil]
      refine ⟨fun hcheck => ⟨hmoments hcheck, fun r i'' h => ?_⟩, fun _ h => by cases h⟩
      cases h
      exact (hends hcheck).checked
    | ok u =>
      -- only now is the line finished that is left
      obtain rfl : i'.options = o := hoptions i' hrun
      have hdelivered : Delivered i'.options (Interpreter.commandsEvents fuel bibFiles p i)
          i'.machine := hends
      obtain ⟨hfilled, hwords⟩ := hdelivered.flush
      refine ⟨fun hcheck => ⟨?_, ?_⟩, ?_⟩
      · refine List.forall_mem_append.2 ⟨hmoments hcheck, List.forall_mem_singleton.2 ?_⟩
        exact ⟨(hdelivered.filled hcheck).checked, (hfilled hcheck).checked⟩
      · intro r i'' hflush
        have hflush : i'.flush = (r, i'') := Option.some.inj hflush
        rw [hflush] at hfilled
        exact (hfilled hcheck).checked
      · intro i'' hflush
        have hflush : i'.flush = (.ok (), i'') := Option.some.inj hflush
        have hnothing : i'.flushEvent.told = [] := rfl
        rw [hwords i'' hflush, told_concat, hnothing, List.append_nil]

/-- A style that writes a group over two lines of the source and leaves a text behind the last
newline. -/
def Program.groupSample : Program :=
  [⟨.function "f".toList [.string "\x7bab cd".toList, .name "write$".toList,
      .string "\x7d".toList, .name "write$".toList, .name "newline$".toList,
      .string "ef".toList, .name "write$".toList], ⟨0, .bare 0, .bare 0⟩⟩,
    ⟨.execute "f".toList, ⟨0, .bare 0, .bare 0⟩⟩]

/-- A group that is too long for a line is broken inside, but in the end the bibliography is
balanced and has the words that were written. -/
theorem written_of_groupSample :
    ∃ i', (Interpreter.fresh { maxLineWidth := 3 } (.memory .empty) .willing).run 3
        Program.groupSample [] [] = some (.ok (), i') ∧
      Tex.checkBraces i'.machine.sink.written = .ok () ∧
      words i'.machine.sink.written = ["\x7bab".toList, "cd\x7d".toList, "ef".toList] := by
  have htakes : SinkAnswers.willing.TakesAll := fun _ _ => rfl
  have h := written_of_run 3 { maxLineWidth := 3 } (.memory .empty) htakes Program.groupSample [] []
  obtain ⟨i', hrun, -⟩ := Interpreter.exists_of_any_isOk (P := fun _ => true)
    (x := (Interpreter.fresh { maxLineWidth := 3 } (.memory .empty) .willing).run 3
      Program.groupSample [] []) (by decide +kernel)
  refine ⟨i', hrun, ((h.1 rfl).2 _ _ hrun).whole, (h.2 i' hrun).trans ?_⟩
  decide +kernel

/-- While the lines of the group are handed over, the sink is not balanced: after the first of its
pieces it holds the opening brace without the closing one. -/
theorem group_halved_in_sink :
    ∃ i' ps, (Interpreter.fresh { maxLineWidth := 3 } (.memory .empty) .willing).run 3
        Program.groupSample [] [] = some (.ok (), i') ∧
      ps <+: i'.machine.sink.pieces.reverse ∧ ps.flatten = "\x7bab".toList ∧
      Tex.checkBraces ps.flatten ≠ .ok () := by
  obtain ⟨i', hrun, hpieces⟩ := Interpreter.exists_of_any_isOk
    (P := fun i' => ["\x7bab".toList].isPrefixOf i'.machine.sink.pieces.reverse)
    (x := (Interpreter.fresh { maxLineWidth := 3 } (.memory .empty) .willing).run 3
      Program.groupSample [] []) (by decide +kernel)
  exact ⟨i', ["\x7bab".toList], hrun, List.isPrefixOf_iff_prefix.1 hpieces, rfl, nofun⟩

end Bibliography.Style
