import ByteMachine.Proofs.Json.Skip
import ByteMachine.Proofs.Json.Value
import Mathlib.Data.List.Forall2
import Mathlib.Data.List.Nodup

/-! Records as they may be written: as objects whose members come in any order, with others between
them, or as arrays of their first fields; a field that has the value of an absent one may be left
out. A reader whose fields do their part reads every such text as the record it was written from. -/

namespace ByteMachine.Json

variable {ρ : Type}

/-! ## Texts of records -/

/-- A field of a record as it is written: its name, its value in a record, its value when it is left
out, and the texts of its values. -/
structure WrittenField (ρ : Type) where
  name : String
  Value : Type
  value : ρ → Value
  absent : Value
  Writes : Value → List Char → Prop

namespace WrittenField

def IsWritten (field : WrittenField ρ) (record : ρ) (text : List Char) : Prop :=
  field.Writes (field.value record) text

def MayBeAbsent (field : WrittenField ρ) (record : ρ) : Prop := field.value record = field.absent

end WrittenField

/-- Items with commas between them, or blanks when there are none. -/
def Joined (items : List (List Char)) (text : List Char) : Prop :=
  if items = [] then Blanks text else text = [','].intercalate items

/-- A value with the blanks around it. -/
inductive Element (Writes : List Char → Prop) : List Char → Prop
  | padded {before value after : List Char} (hb : Blanks before) (hv : Writes value)
      (ha : Blanks after) : Element Writes (before ++ value ++ after)

/-- A name and a value with the blanks around both. -/
inductive Member (name : String) (Writes : List Char → Prop) : List Char → Prop
  | named {before key middle element : List Char} (hb : Blanks before)
      (hkey : Spells name.toList key) (hm : Blanks middle) (he : Element Writes element) :
      Member name Writes (before ++ '"' :: key ++ '"' :: middle ++ ':' :: element)

/-- What may stand behind a name: a text of the field of that name, or any value at all when the
name is unknown. -/
def Fits (fields : List (WrittenField ρ)) (record : ρ) (name : String) (value : List Char) : Prop :=
  (∃ field ∈ fields, field.name = name ∧ field.IsWritten record value) ∨
    (∀ field ∈ fields, field.name ≠ name) ∧ WellFormed .value value

/-- The texts of a record. The members of an object are given by their names and their texts. -/
inductive RecordText (fields : List (WrittenField ρ)) (record : ρ) : List Char → Prop
  | object {members : List (String × List Char)} {body : List Char}
      (hmembers : ∀ member ∈ members, Member member.1 (Fits fields record member.1) member.2)
      (honce : ∀ field ∈ fields, (members.map Prod.fst).count field.name ≤ 1)
      (habsent : ∀ field ∈ fields, field.name ∉ members.map Prod.fst → field.MayBeAbsent record)
      (hbody : Joined (members.map Prod.snd) body) : RecordText fields record ('{' :: body ++ ['}'])
  | array {written absent : List (WrittenField ρ)} {elements : List (List Char)} {body : List Char}
      (hfields : fields = written ++ absent)
      (helements : List.Forall₂ (fun field => Element (field.IsWritten record)) written elements)
      (habsent : ∀ field ∈ absent, field.MayBeAbsent record) (hbody : Joined elements body) :
      RecordText fields record ('[' :: body ++ [']'])

theorem joined_intercalate (items : List (List Char)) :
    Joined items ([','].intercalate items) := by
  unfold Joined
  split
  · rename_i h
    rw [h]
    exact blanks_nil
  · rfl

/-- A record whose fields all have texts has one. -/
theorem exists_recordText {fields : List (WrittenField ρ)} {record : ρ}
    (h : ∀ field ∈ fields, ∃ text, field.IsWritten record text) :
    ∃ text, RecordText fields record text := by
  obtain ⟨elements, helements⟩ : ∃ elements,
      List.Forall₂ (fun field => Element (field.IsWritten record)) fields elements := by
    induction fields with
    | nil => exact ⟨[], .nil⟩
    | cons field fields ih =>
      rw [List.forall_mem_cons] at h
      obtain ⟨text, htext⟩ := h.1
      obtain ⟨elements, helements⟩ := ih h.2
      exact ⟨_ :: elements, .cons (.padded blanks_nil htext blanks_nil) helements⟩
  exact ⟨_, .array (List.append_nil fields).symm helements (by simp) (joined_intercalate elements)⟩

/-! ## What readers have to do -/

/-- A reader of a field gives it the value that is written, and the others keep theirs. -/
structure ReadsField (fields : List (WrittenField ρ)) (reader : RecordField ρ)
    (field : WrittenField ρ) : Prop where
  name : reader.name = field.name
  pastBlanks : ∀ record text, reader.read record (skipBlanks text) = reader.read record text
  nil : ∀ record result, reader.read record [] ≠ .ok result
  closing : ∀ record rest result, reader.read record (']' :: rest) ≠ .ok result
  written : ∀ {target text rest} record, field.IsWritten target text → Delimited rest →
    ∃ next, reader.read record (text ++ rest) = .ok (next, rest) ∧
      field.value next = field.value target ∧
      ∀ other ∈ fields, other.name ≠ field.name → other.value next = other.value record

/-- Readers for the fields of a record, which are all there is to it. -/
structure ReadsRecord (readers : List (RecordField ρ)) (fields : List (WrittenField ρ))
    (initial : ρ) : Prop where
  readers : List.Forall₂ (ReadsField fields) readers fields
  names : (fields.map WrittenField.name).Nodup
  initial : ∀ field ∈ fields, field.MayBeAbsent initial
  ext : ∀ {record target}, (∀ field ∈ fields, field.value record = field.value target) →
    record = target

/-- A field is read with a reader of its values. -/
theorem ReadsField.of {fields : List (WrittenField ρ)} {name : String} {α : Type} {value : ρ → α}
    {absent : α} {Writes : α → List Char → Prop} {read : Reader α} {put : ρ → α → ρ}
    (h : Reads read Writes) (hput : ∀ record a, value (put record a) = a)
    (hothers : ∀ other ∈ fields, other.name ≠ name →
      ∀ record a, other.value (put record a) = other.value record) :
    ReadsField fields (.of name read put) ⟨name, α, value, absent, Writes⟩ where
  name := rfl
  pastBlanks record text := by simp [RecordField.of, h.pastBlanks]
  nil record result := by
    cases hread : read [] with
    | error failure => simp [RecordField.of, hread, Except.map]
    | ok value => exact absurd hread (h.nil value)
  closing record rest result := by
    cases hread : read (']' :: rest) with
    | error failure => simp [RecordField.of, hread, Except.map]
    | ok value => exact absurd hread (h.closing rest value)
  written {target text rest} record hwritten hrest := by
    refine ⟨put record (value target), ?_, hput _ _, ?_⟩
    · simp [RecordField.of, h.written hwritten hrest, Except.map]
    · intro other hother hname
      exact hothers other hother hname _ _

/-! ## Records that are read in part -/

/-- The fields with the names seen have the values of the target, the others those of absent
fields. -/
def Filled (fields : List (WrittenField ρ)) (target : ρ) (seen : List String) (record : ρ) : Prop :=
  ∀ field ∈ fields, (field.name ∈ seen → field.value record = field.value target) ∧
    (field.name ∉ seen → field.value record = field.absent)

variable {readers : List (RecordField ρ)} {fields : List (WrittenField ρ)}
  {initial record target : ρ} {seen : List String}

theorem ReadsRecord.filled_initial (h : ReadsRecord readers fields initial) (target : ρ) :
    Filled fields target [] initial :=
  fun field hfield => ⟨fun hseen => absurd hseen List.not_mem_nil, fun _ => h.initial field hfield⟩

theorem ReadsRecord.eq_of_name_eq (h : ReadsRecord readers fields initial)
    {field other : WrittenField ρ} (hfield : field ∈ fields) (hother : other ∈ fields)
    (hname : field.name = other.name) : field = other :=
  List.inj_on_of_nodup_map h.names hfield hother hname

/-- Reading one more field fills it. -/
theorem Filled.cons (h : ReadsRecord readers fields initial)
    (hfilled : Filled fields target seen record) {field : WrittenField ρ} (hfield : field ∈ fields)
    {next : ρ} (hvalue : field.value next = field.value target)
    (hothers : ∀ other ∈ fields, other.name ≠ field.name →
      other.value next = other.value record) :
    Filled fields target (field.name :: seen) next := by
  intro other hother
  by_cases hname : other.name = field.name
  · obtain rfl := h.eq_of_name_eq hother hfield hname
    exact ⟨fun _ => hvalue, fun hunseen => absurd List.mem_cons_self hunseen⟩
  · rw [hothers other hother hname]
    constructor
    · intro hseen
      exact (hfilled other hother).1 ((List.mem_cons.mp hseen).resolve_left hname)
    · intro hunseen
      exact (hfilled other hother).2 fun hseen => hunseen (List.mem_cons_of_mem _ hseen)

/-- When only absent fields are missing, the record is the target. -/
theorem Filled.eq_target (h : ReadsRecord readers fields initial)
    (hfilled : Filled fields target seen record)
    (habsent : ∀ field ∈ fields, field.name ∉ seen → field.MayBeAbsent target) :
    record = target := by
  apply h.ext
  intro field hfield
  by_cases hseen : field.name ∈ seen
  · exact (hfilled field hfield).1 hseen
  · rw [(hfilled field hfield).2 hseen, habsent field hfield hseen]

/-! ## Items with commas -/

/-- The items after the first, each behind its comma. -/
def behindCommas (items : List (List Char)) : List Char := items.flatMap (',' :: ·)

theorem intercalate_cons (item : List Char) (items : List (List Char)) :
    [','].intercalate (item :: items) = item ++ behindCommas items := by
  induction items generalizing item with
  | nil => simp [List.intercalate, behindCommas]
  | cons next items ih =>
    have hstep : [','].intercalate (item :: next :: items) =
        item ++ ',' :: [','].intercalate (next :: items) := by
      simp [List.intercalate, List.intersperse]
    rw [hstep, ih]
    rfl

/-- The text of the items that are left: all of them, or those after the first with their commas and
the blanks before these. -/
def Remaining (first : Bool) (items : List (List Char)) (text : List Char) : Prop :=
  if first then Joined items text
  else ∃ before, Blanks before ∧ text = before ++ behindCommas items

/-- A text goes on with an item, behind a comma unless it is the first one. -/
inductive Announced : Bool → List Char → List Char → Prop
  | first (text : List Char) : Announced true text text
  | behindComma {before : List Char} (hb : Blanks before) (text : List Char) :
      Announced false (before ++ ',' :: text) text

theorem Remaining.nil {first : Bool} {text : List Char} (h : Remaining first [] text) :
    Blanks text := by
  cases first with
  | true => simpa [Remaining, Joined] using h
  | false =>
    obtain ⟨before, hb, rfl⟩ := h
    simpa [behindCommas] using hb

theorem Remaining.cons {first : Bool} {item : List Char} {items : List (List Char)}
    {text : List Char} (h : Remaining first (item :: items) text) (rest : List Char) :
    Announced first (text ++ rest) (item ++ (behindCommas items ++ rest)) := by
  cases first with
  | true =>
    have htext : text = item ++ behindCommas items := by
      simpa [Remaining, Joined, intercalate_cons] using h
    rw [htext, List.append_assoc]
    exact .first _
  | false =>
    obtain ⟨before, hb, rfl⟩ := h
    simp only [behindCommas, List.flatMap_cons, List.append_assoc, List.cons_append]
    exact .behindComma hb _

theorem remaining_append {before : List Char} (hb : Blanks before) (items : List (List Char)) :
    Remaining false items (before ++ behindCommas items) := ⟨before, hb, rfl⟩

theorem delimited_behindCommas (items : List (List Char)) {c : Char} (hc : c ∈ [',', ']', '}'])
    (rest : List Char) : Delimited (behindCommas items ++ c :: rest) := by
  cases items with
  | nil => exact delimited_cons hc rest
  | cons item items => exact delimited_cons (by decide) _

/-! ## Arrays -/

/-- A reader of a field reads an element up to the blanks behind it. -/
theorem ReadsField.element {reader : RecordField ρ} {field : WrittenField ρ}
    (h : ReadsField fields reader field) {text follow : List Char} (record : ρ)
    (he : Element (field.IsWritten target) text) (hfollow : Delimited follow) :
    ∃ next after, Blanks after ∧
      reader.read record (text ++ follow) = .ok (next, after ++ follow) ∧
      field.value next = field.value target ∧
      ∀ other ∈ fields, other.name ≠ field.name → other.value next = other.value record := by
  obtain @⟨before, value, after, hb, hv, ha⟩ := he
  obtain ⟨next, hread, hvalue, hothers⟩ := h.written record hv (delimited_append ha hfollow)
  refine ⟨next, after, ha, ?_, hvalue, hothers⟩
  rw [List.append_assoc, List.append_assoc, ← h.pastBlanks, skipBlanks_append hb, h.pastBlanks,
    hread]

/-- A text that a reader accepts is neither empty nor the end of an array. -/
theorem ReadsField.exists_cons {reader : RecordField ρ} {field : WrittenField ρ}
    (h : ReadsField fields reader field) {text : List Char} {result : ρ × List Char}
    (hread : reader.read record text = .ok result) :
    ∃ c rest, skipBlanks text = c :: rest ∧ c ≠ ']' ∧
      reader.read record (c :: rest) = .ok result := by
  rw [← h.pastBlanks] at hread
  cases htext : skipBlanks text with
  | nil =>
    rw [htext] at hread
    exact absurd hread (h.nil record result)
  | cons c rest =>
    rw [htext] at hread
    refine ⟨c, rest, rfl, ?_, hread⟩
    rintro rfl
    exact h.closing record rest result hread

theorem readElements_closing (first : Bool) (record : ρ) (readers : List (RecordField ρ))
    {before : List Char} (hb : Blanks before) (rest : List Char) :
    readElements first record readers (before ++ ']' :: rest) = .ok (record, rest) := by
  have hskip : skipBlanks (before ++ ']' :: rest) = ']' :: rest := by
    rw [skipBlanks_append hb, skipBlanks_cons (by decide)]
  cases readers with
  | nil => simp [readElements, hskip]
  | cons reader readers => simp [readElements, hskip]

theorem readElements_announced {reader : RecordField ρ} {field : WrittenField ρ}
    (h : ReadsField fields reader field) (readers : List (RecordField ρ)) {first : Bool}
    {text element rest : List Char} (hnext : Announced first text element) {next : ρ}
    (hread : reader.read record element = .ok (next, rest)) :
    readElements first record (reader :: readers) text = readElements false next readers rest := by
  obtain ⟨c, more, hskip, hc, hhead⟩ := h.exists_cons hread
  cases hnext with
  | first element => simp [readElements, hskip, hhead, bind, Except.bind]
  | behindComma hb element =>
    simp [readElements, skipBlanks_append hb, skipBlanks_cons, blanks, hskip, hc, hhead, bind,
      Except.bind]

/-- The elements that are left fill the fields they stand for; after them the array ends. -/
theorem readElements_remaining (h : ReadsRecord readers fields initial)
    {written absent : List (WrittenField ρ)} {elements : List (List Char)}
    (helements : List.Forall₂ (fun field => Element (field.IsWritten target)) written elements)
    {others : List (RecordField ρ)}
    (hothers : List.Forall₂ (ReadsField fields) others (written ++ absent))
    (hsub : written ⊆ fields) (hfilled : Filled fields target seen record)
    (hleft : ∀ field ∈ fields, field.name ∉ seen → field ∈ written ++ absent)
    (habsent : ∀ field ∈ absent, field.MayBeAbsent target) {first : Bool} {text : List Char}
    (htext : Remaining first elements text) (rest : List Char) :
    readElements first record others (text ++ ']' :: rest) = .ok (target, rest) := by
  induction helements generalizing others seen record first text with
  | nil =>
    have hrecord : record = target := by
      apply hfilled.eq_target h
      intro field hfield hunseen
      exact habsent field (hleft field hfield hunseen)
    rw [← hrecord]
    exact readElements_closing first record others htext.nil rest
  | @cons field element written elements he helements ih =>
    obtain ⟨reader, readers, hreader, hreaders, rfl⟩ := List.forall₂_cons_right_iff.mp hothers
    have hfollow := delimited_behindCommas elements (c := ']') (by decide) rest
    obtain ⟨next, after, ha, hread, hvalue, hkept⟩ := hreader.element record he hfollow
    have hfield : field ∈ fields := hsub List.mem_cons_self
    rw [readElements_announced hreader readers (htext.cons _) hread, ← List.append_assoc]
    apply ih hreaders (fun _ hmem => hsub (List.mem_cons_of_mem _ hmem))
      (hfilled.cons h hfield hvalue hkept) _ (remaining_append ha elements)
    intro other hother hunseen
    have hname : other ≠ field := by
      rintro rfl
      exact hunseen List.mem_cons_self
    have hmem := hleft other hother fun hseen => hunseen (List.mem_cons_of_mem _ hseen)
    exact (List.mem_cons.mp hmem).resolve_left hname

/-! ## Objects -/

theorem exists_reader {field : WrittenField ρ} {others : List (WrittenField ρ)}
    (hreaders : List.Forall₂ (ReadsField fields) readers others) (hfield : field ∈ others)
    (hnames : (others.map WrittenField.name).Nodup) :
    ∃ reader, readers.find? (·.name == field.name) = some reader ∧
      ReadsField fields reader field := by
  induction hreaders with
  | nil => exact absurd hfield List.not_mem_nil
  | @cons reader other readers others hreader hreaders ih =>
    rw [List.map_cons, List.nodup_cons] at hnames
    rcases List.mem_cons.mp hfield with rfl | hmem
    · refine ⟨reader, ?_, hreader⟩
      rw [List.find?_cons_of_pos (by simp [hreader.name])]
    · have hname : other.name ≠ field.name := by
        intro hname
        exact hnames.1 (hname ▸ List.mem_map_of_mem hmem)
      rw [List.find?_cons_of_neg (by simpa [hreader.name] using hname)]
      exact ih hmem hnames.2

theorem no_reader {name : String} {others : List (WrittenField ρ)}
    (hreaders : List.Forall₂ (ReadsField fields) readers others)
    (hname : ∀ field ∈ others, field.name ≠ name) :
    readers.find? (·.name == name) = none := by
  induction hreaders with
  | nil => rfl
  | @cons reader other readers others hreader hreaders ih =>
    have hother : other.name ≠ name := hname other List.mem_cons_self
    rw [List.find?_cons_of_neg (by simpa [hreader.name] using hother)]
    exact ih fun field hfield => hname field (List.mem_cons_of_mem _ hfield)

theorem readColon_append {middle : List Char} (hm : Blanks middle) (rest : List Char) :
    readColon (middle ++ ':' :: rest) = .ok rest := by
  rw [readColon, skipBlanks_append hm, skipBlanks_cons (by decide)]
  rfl

theorem nextMember_closing (first : Bool) {before : List Char} (hb : Blanks before)
    (rest : List Char) : nextMember first (before ++ '}' :: rest) = .ok (.inr rest) := by
  simp [nextMember, skipBlanks_append hb, skipBlanks_cons, blanks]

theorem nextMember_announced {first : Bool} {text before member : List Char} (hb : Blanks before)
    (hnext : Announced first text (before ++ '"' :: member)) :
    nextMember first text = .ok (.inl ('"' :: member)) := by
  cases hnext with
  | first => simp [nextMember, skipBlanks_append hb, skipBlanks_cons, blanks]
  | behindComma hb' =>
    simp [nextMember, skipBlanks_append hb, skipBlanks_append hb', skipBlanks_cons, blanks]

/-- A member of a field that has not come before gives the field its value. -/
theorem readMembers_known {reader : RecordField ρ} {field : WrittenField ρ}
    (hreader : readers.find? (·.name == field.name) = some reader) (hunseen : field.name ∉ seen)
    {first : Bool} {text key middle value rest : List Char}
    (hnext : nextMember first text = .ok (.inl ('"' :: (key ++ '"' :: (middle ++ ':' :: value)))))
    (hkey : Spells field.name.toList key) (hm : Blanks middle) {next : ρ}
    (hread : reader.read record value = .ok (next, rest)) (fuel : Nat) :
    readMembers readers (fuel + 1) first seen record text =
      readMembers readers fuel false (field.name :: seen) next rest := by
  simp [readMembers, hnext, readName, readString_spells hkey, hreader, hunseen,
    readColon_append hm, hread, bind, Except.bind]

/-- A member without a field changes nothing. -/
theorem readMembers_unknown {name : String} (hreader : readers.find? (·.name == name) = none)
    {first : Bool} {text key middle value rest : List Char}
    (hnext : nextMember first text = .ok (.inl ('"' :: (key ++ '"' :: (middle ++ ':' :: value)))))
    (hkey : Spells name.toList key) (hm : Blanks middle) (hskip : skip value = .ok rest)
    (fuel : Nat) :
    readMembers readers (fuel + 1) first seen record text =
      readMembers readers fuel false seen record rest := by
  simp [readMembers, hnext, readName, readString_spells hkey, hreader, readColon_append hm, hskip,
    bind, Except.bind]

/-- How often the names of fields come among the names seen and those to come: at most once, and not
at all only where the field may be absent. -/
def Complete (fields : List (WrittenField ρ)) (target : ρ) (names : List String) : Prop :=
  ∀ field ∈ fields, names.count field.name ≤ 1 ∧
    (names.count field.name = 0 → field.MayBeAbsent target)

/-- One member is read: whatever it is, the fields seen are filled afterwards. -/
theorem readMembers_member (h : ReadsRecord readers fields initial) {name : String}
    {member follow : List Char} (hmember : Member name (Fits fields target name) member)
    (hfollow : Delimited follow) (hfilled : Filled fields target seen record)
    {names : List String} (hcomplete : Complete fields target (seen ++ name :: names))
    {first : Bool} {text : List Char} (hnext : Announced first text (member ++ follow))
    (fuel : Nat) :
    ∃ seen' next after, Blanks after ∧
      readMembers readers (fuel + 1) first seen record text =
        readMembers readers fuel false seen' next (after ++ follow) ∧
      Filled fields target seen' next ∧ Complete fields target (seen' ++ names) := by
  obtain @⟨before, key, middle, _, hb, hkey, hm, he⟩ := hmember
  obtain @⟨gap, value, after, hg, hv, ha⟩ := he
  have hquoted : nextMember first text = .ok (.inl
      ('"' :: (key ++ '"' :: (middle ++ ':' :: (gap ++ (value ++ (after ++ follow))))))) := by
    apply nextMember_announced hb
    simpa using hnext
  rcases hv with ⟨field, hfield, rfl, hwritten⟩ | ⟨hunknown, hvalue⟩
  · obtain ⟨reader, hfind, hreader⟩ := exists_reader h.readers hfield h.names
    obtain ⟨next, after', ha', hread, hset, hkept⟩ :=
      hreader.element record (.padded hg hwritten ha) hfollow
    have hunseen : field.name ∉ seen := by
      have honce := (hcomplete field hfield).1
      rw [List.count_append, List.count_cons_self] at honce
      exact List.count_eq_zero.mp (by omega)
    refine ⟨field.name :: seen, next, after', ha', ?_, hfilled.cons h hfield hset hkept, ?_⟩
    · apply readMembers_known hfind hunseen hquoted hkey hm
      simpa using hread
    · intro other hother
      rw [List.cons_append, ← List.perm_middle.count_eq]
      exact hcomplete other hother
  · refine ⟨seen, record, after, ha, ?_, hfilled, ?_⟩
    · have hskip := skip_append hg hvalue (delimited_append ha hfollow)
      exact readMembers_unknown (no_reader h.readers hunknown) hquoted hkey hm hskip fuel
    · intro field hfield
      have hcount : (seen ++ name :: names).count field.name =
          (seen ++ names).count field.name := by
        rw [List.count_append, List.count_append,
          List.count_cons_of_ne (Ne.symm (hunknown field hfield))]
      rw [← hcount]
      exact hcomplete field hfield

/-- The members that are left are read one after the other; after them the object ends. -/
theorem readMembers_remaining (h : ReadsRecord readers fields initial)
    {members : List (String × List Char)}
    (hmembers : ∀ member ∈ members, Member member.1 (Fits fields target member.1) member.2)
    (hfilled : Filled fields target seen record)
    (hcomplete : Complete fields target (seen ++ members.map Prod.fst)) {first : Bool}
    {text : List Char} (htext : Remaining first (members.map Prod.snd) text) {fuel : Nat}
    (hfuel : members.length < fuel) (rest : List Char) :
    readMembers readers fuel first seen record (text ++ '}' :: rest) = .ok (target, rest) := by
  induction members generalizing seen record first text fuel with
  | nil =>
    obtain ⟨fuel, rfl⟩ := Nat.exists_eq_succ_of_ne_zero (Nat.ne_zero_of_lt hfuel)
    have hrecord : record = target := by
      apply hfilled.eq_target h
      intro field hfield hunseen
      apply (hcomplete field hfield).2
      simpa [List.count_eq_zero] using hunseen
    simp [readMembers, nextMember_closing first htext.nil rest, hrecord, bind, Except.bind]
  | cons member members ih =>
    obtain ⟨fuel, rfl⟩ := Nat.exists_eq_succ_of_ne_zero (Nat.ne_zero_of_lt hfuel)
    have hfollow := delimited_behindCommas (members.map Prod.snd) (c := '}') (by decide) rest
    obtain ⟨seen', next, after, ha, hread, hfilled, hcomplete⟩ :=
      readMembers_member h (hmembers member List.mem_cons_self) hfollow hfilled hcomplete
        (htext.cons _) fuel
    rw [hread, ← List.append_assoc]
    exact ih (fun other hother => hmembers other (List.mem_cons_of_mem _ hother)) hfilled
      hcomplete (remaining_append ha _) (Nat.lt_of_succ_lt_succ hfuel)

/-! ## Records -/

theorem Member.length_pos {name : String} {Writes : List Char → Prop} {text : List Char}
    (h : Member name Writes text) : 0 < text.length := by
  obtain @⟨before, key, middle, element, -, -, -, -⟩ := h
  simp only [List.length_append, List.length_cons]
  omega

theorem length_le_behindCommas (items : List (List Char)) :
    items.length ≤ (behindCommas items).length := by
  induction items with
  | nil => exact Nat.zero_le _
  | cons item items ih =>
    rw [behindCommas] at ih
    simp only [behindCommas, List.flatMap_cons, List.length_append, List.length_cons]
    omega

/-- An object has room for its members. -/
theorem length_le_of_joined {items : List (List Char)} {body : List Char}
    (h : Joined items body) (hpos : ∀ item ∈ items, 0 < item.length) :
    items.length ≤ body.length := by
  cases items with
  | nil => exact Nat.zero_le _
  | cons item items =>
    have hbody : body = item ++ behindCommas items := by
      simpa [Joined, intercalate_cons] using h
    have hitem := hpos item List.mem_cons_self
    have hitems := length_le_behindCommas items
    rw [hbody, List.length_append, List.length_cons]
    omega

/-- A reader of a record reads it from each of its texts. -/
theorem ReadsRecord.reads (h : ReadsRecord readers fields initial) :
    Reads (readRecord readers initial) (RecordText fields) where
  pastBlanks text := by
    unfold readRecord
    rw [skipBlanks_skipBlanks]
  nil result := by simp [readRecord, skipBlanks]
  closing rest result := by
    simp [readRecord, skipBlanks_cons, blanks, wrongKind, isDigit]
  written {target text rest} htext _ := by
    have hfilled := h.filled_initial target
    cases htext with
    | @object members body hmembers honce habsent hbody =>
      have hcomplete : Complete fields target ([] ++ members.map Prod.fst) := by
        intro field hfield
        refine ⟨honce field hfield, fun hcount => ?_⟩
        exact habsent field hfield (List.count_eq_zero.mp hcount)
      have hlength : members.length ≤ body.length := by
        rw [← List.length_map Prod.snd]
        apply length_le_of_joined hbody
        intro item hitem
        obtain ⟨member, hmember, rfl⟩ := List.mem_map.mp hitem
        exact (hmembers member hmember).length_pos
      have hfuel : members.length < (body ++ '}' :: rest).length + 1 := by
        rw [List.length_append]
        omega
      have hall : Remaining true (members.map Prod.snd) body := hbody
      have hread := readMembers_remaining h hmembers hfilled hcomplete hall hfuel rest
      simpa [readRecord, skipBlanks_cons, blanks] using hread
    | @array written absent elements body hfields helements habsent hbody =>
      subst hfields
      have hall : Remaining true elements body := hbody
      have hread := readElements_remaining h helements h.readers
        (List.subset_append_left written absent) hfilled (fun field hfield _ => hfield) habsent
        hall rest
      simpa [readRecord, skipBlanks_cons, blanks] using hread

/-- A text that holds one value is read as that value. -/
theorem Reads.document {α : Type} {read : Reader α} {Writes : α → List Char → Prop}
    (h : Reads read Writes) {value : α} {text : String}
    (htext : Element (Writes value) text.toList) : readDocument read text = .ok value := by
  rw [readDocument]
  generalize text.toList = chars at htext
  obtain @⟨before, body, after, hb, hv, ha⟩ := htext
  have hdelimited : Delimited after := fun c hc => .inl (ha c (List.mem_of_mem_head? hc))
  have hread : read (before ++ body ++ after) = .ok (value, after) := by
    rw [List.append_assoc, ← h.pastBlanks, skipBlanks_append hb, h.pastBlanks,
      h.written hv hdelimited]
  have hend : skipBlanks after = [] := by
    rw [← List.append_nil after, skipBlanks_append ha]
    rfl
  rw [hread]
  simp [hend, bind, Except.bind]

end ByteMachine.Json
