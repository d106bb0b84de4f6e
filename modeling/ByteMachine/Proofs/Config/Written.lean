import ByteMachine.Config.Reader
import ByteMachine.Proofs.Json.Record

/-! Settings as they may be written in JSON, and that each way of writing them is read back: in any
order, with unknown members between the known ones, with fields left out that have their defaults,
and with arrays in the place of objects. -/

namespace ByteMachine.Config

open Json

/-! ## Texts of settings -/

def generalLayout : List (WrittenField GeneralConfig) :=
  [⟨"trace_instructions", Bool, fun general => general.traceInstructions, false, WritesBool⟩,
   ⟨"max_ticks", Option UInt64, fun general => general.maxTicks, none,
    WritesOptional WritesNatural⟩,
   ⟨"print_stats", Bool, fun general => general.printStats, false, WritesBool⟩]

def clockLayout : List (WrittenField ClockConfig) :=
  [⟨"interval_ms", UInt64, fun clock => clock.intervalMs, 500, WritesNatural⟩]

/-- The sections are records themselves. One may be left out when all its fields may. -/
def layout : List (WrittenField Config) :=
  [⟨"general", GeneralConfig, fun config => config.general, ⟨false, none, false⟩,
    RecordText generalLayout⟩,
   ⟨"clock", ClockConfig, fun config => config.clock, ⟨500⟩, RecordText clockLayout⟩]

/-- The texts of settings: a record with blanks around it. -/
def IsWritten (config : Config) (text : List Char) : Prop :=
  Element (RecordText layout config) text

/-! ## Reading them back -/

theorem readsRecord_general : ReadsRecord generalFields generalLayout {} where
  readers := by
    refine .cons (.of reads_bool ?_ ?_) (.cons (.of (reads_optional reads_natural readNatural_null)
      ?_ ?_) (.cons (.of reads_bool ?_ ?_) .nil))
    all_goals simp [generalLayout]
  names := by decide
  initial := by simp [generalLayout, WrittenField.MayBeAbsent]
  ext {record target} h := by
    simp only [generalLayout, List.forall_mem_cons] at h
    obtain ⟨htrace, hmax, hprint, -⟩ := h
    cases record
    cases target
    cases htrace
    cases hmax
    cases hprint
    rfl

theorem readsRecord_clock : ReadsRecord clockFields clockLayout {} where
  readers := by
    refine .cons (.of reads_natural ?_ ?_) .nil
    all_goals simp [clockLayout]
  names := by decide
  initial := by simp [clockLayout, WrittenField.MayBeAbsent]
  ext {record target} h := by
    have hinterval := h _ List.mem_cons_self
    cases record
    cases target
    cases hinterval
    rfl

theorem readsRecord_document : ReadsRecord fields layout {} where
  readers := by
    refine .cons (.of readsRecord_general.reads ?_ ?_)
      (.cons (.of readsRecord_clock.reads ?_ ?_) .nil)
    all_goals simp [layout]
  names := by decide
  initial := by simp [layout, WrittenField.MayBeAbsent]
  ext {record target} h := by
    simp only [layout, List.forall_mem_cons] at h
    obtain ⟨hgeneral, hclock, -⟩ := h
    cases record
    cases target
    cases hgeneral
    cases hclock
    rfl

/-- Settings are read back from whatever text they are written as. -/
theorem parse_written {config : Config} {text : String} (h : config.IsWritten text.toList) :
    parse text = .ok config := by
  have hread : readDocument (readRecord fields {}) text = .ok config :=
    readsRecord_document.reads.document h
  rw [parse, hread]
  rfl

/-- All settings can be written. -/
theorem exists_isWritten (config : Config) : ∃ text : String, config.IsWritten text.toList := by
  have hbool (b : Bool) : ∃ text, WritesBool b text := ⟨_, rfl⟩
  have hnatural (n : UInt64) : ∃ text, WritesNatural n text := ⟨_, rfl⟩
  have hoptional (n : Option UInt64) : ∃ text, WritesOptional WritesNatural n text := by
    cases n <;> exact ⟨_, rfl⟩
  have hgeneral : ∃ text, RecordText generalLayout config.general text :=
    exists_recordText (by simp [generalLayout, WrittenField.IsWritten, hbool, hoptional])
  have hclock : ∃ text, RecordText clockLayout config.clock text :=
    exists_recordText (by simp [clockLayout, WrittenField.IsWritten, hnatural])
  obtain ⟨text, htext⟩ : ∃ text, RecordText layout config text :=
    exists_recordText (by simp [layout, WrittenField.IsWritten, hgeneral, hclock])
  refine ⟨String.ofList text, ?_⟩
  rw [String.toList_ofList, ← List.append_nil text, ← List.nil_append text]
  exact .padded blanks_nil htext blanks_nil

/-- Shuffled settings, with an unknown member that holds a lone surrogate and a number beyond the
doubles, the longest interval in an array, an escape in a known name, and most fields left out. -/
def shuffledText : String :=
  "\x7b\"x\":[\"\\ud800\",1e999],\"clock\":[18446744073709551615] ," ++
    "\"general\":\x7b\"max_ticks\" :null,\"\\u0070rint_stats\":\ttrue\x7d\x7d\n"

def shuffled : Config := ⟨⟨false, none, true⟩, ⟨18446744073709551615⟩⟩

theorem parse_written_shuffled :
    shuffled.IsWritten shuffledText.toList ∧ parse shuffledText = .ok shuffled := by
  have hlone : HexUnit ['d', '8', '0', '0'] 0xd800 :=
    .digits (hexDigit_digitChar 13 (by decide)) (hexDigit_digitChar 8 (by decide))
      (hexDigit_digitChar 0 (by decide)) (hexDigit_digitChar 0 (by decide))
  have hnumber : NumberText ['1', 'e', '9', '9', '9'] :=
    @NumberText.parts [] ['1'] [] ['e', '9', '9', '9'] (by decide)
      (.inr ⟨⟨by simp, by simp⟩, by simp⟩) (.inl rfl)
      (.inr ⟨'e', [], ['9', '9', '9'], by simp, by simp, ⟨by simp, by simp⟩, rfl⟩)
  have hunknown : WellFormed .value _ := .filled
    (.more (.element blanks_nil (.string (.unit hlone .nil)) blanks_nil)
      (.last (.element blanks_nil (.number hnumber) blanks_nil)))
  have hx : Member "x" (Fits layout shuffled "x") _ :=
    .named blanks_nil (spells_self (by simp [IsPlain])) blanks_nil
      (.padded blanks_nil (.inr ⟨by decide, hunknown⟩) blanks_nil)
  have hclock : RecordText clockLayout shuffled.clock _ :=
    .array (List.append_nil clockLayout).symm (.cons (.padded blanks_nil rfl blanks_nil) .nil)
      (by simp) (joined_intercalate _)
  have hletter : HexUnit ['0', '0', '7', '0'] 'p'.toNat :=
    .digits (hexDigit_digitChar 0 (by decide)) (hexDigit_digitChar 0 (by decide))
      (hexDigit_digitChar 7 (by decide)) (hexDigit_digitChar 0 (by decide))
  have hspace : Blanks [' '] := by simp [Blanks, blanks]
  have htab : Blanks ['\t'] := by simp [Blanks, blanks]
  have hmax : Member "max_ticks" (Fits generalLayout shuffled.general "max_ticks") _ :=
    .named blanks_nil (spells_self (by simp [IsPlain])) hspace
      (.padded blanks_nil (.inl ⟨_, List.mem_cons_of_mem _ List.mem_cons_self, rfl, rfl⟩)
        blanks_nil)
  have hrest : Spells "rint_stats".toList "rint_stats".toList := spells_self (by simp [IsPlain])
  have hprint : Member "print_stats" (Fits generalLayout shuffled.general "print_stats") _ :=
    .named blanks_nil (.unit hletter hrest) blanks_nil
      (.padded htab (.inl ⟨_, List.mem_cons_of_mem _ (List.mem_cons_of_mem _ List.mem_cons_self),
        rfl, rfl⟩) blanks_nil)
  have hgeneral : RecordText generalLayout shuffled.general _ :=
    @RecordText.object _ generalLayout shuffled.general [("max_ticks", _), ("print_stats", _)] _
      (List.forall_mem_cons.mpr ⟨hmax, List.forall_mem_cons.mpr ⟨hprint, by simp⟩⟩) (by decide)
      (by simp [generalLayout, WrittenField.MayBeAbsent, shuffled]) (joined_intercalate _)
  have hclockMember : Member "clock" (Fits layout shuffled "clock") _ :=
    .named blanks_nil (spells_self (by simp [IsPlain])) blanks_nil
      (.padded blanks_nil (.inl ⟨_, List.mem_cons_of_mem _ List.mem_cons_self, rfl, hclock⟩) hspace)
  have hgeneralMember : Member "general" (Fits layout shuffled "general") _ :=
    .named blanks_nil (spells_self (by simp [IsPlain])) blanks_nil
      (.padded blanks_nil (.inl ⟨_, List.mem_cons_self, rfl, hgeneral⟩) blanks_nil)
  have hdocument : RecordText layout shuffled _ :=
    @RecordText.object _ layout shuffled [("x", _), ("clock", _), ("general", _)] _
      (List.forall_mem_cons.mpr ⟨hx, List.forall_mem_cons.mpr
        ⟨hclockMember, List.forall_mem_cons.mpr ⟨hgeneralMember, by simp⟩⟩⟩) (by decide)
      (by simp [layout]) (joined_intercalate _)
  have hline : Blanks ['\n'] := by simp [Blanks, blanks]
  obtain ⟨text, hwritten, htext⟩ : ∃ text, shuffled.IsWritten text ∧
      text = shuffledText.toList :=
    ⟨_, .padded blanks_nil hdocument hline, by decide +kernel⟩
  rw [htext] at hwritten
  exact ⟨hwritten, parse_written hwritten⟩

end ByteMachine.Config
