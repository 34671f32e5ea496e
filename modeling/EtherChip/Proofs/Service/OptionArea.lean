import EtherChip.Service.Dhcp

/-!
# The grammar of an option area

Behind the cookie of a message stands a row of pads and options, and then whatever ends it: the end mark
with anything behind it, the end of the message, or an option of which the message has only a part. Every
byte string is such an area in exactly one way (`parse_eq_iff`), whatever its data looks like, and the
message type is that of the first item which has one (`typeInOptions_bytes`). The walk to it is also given
position by position in the whole message (`Finds`); it comes to an end for every message
(`message_type_found`).
-/
namespace EtherChip.Dhcp

/-- A byte that starts an option: it is neither a pad nor the end mark. -/
def OptionCode (code : UInt8) : Prop := code ≠ 0 ∧ code ≠ 255

instance : DecidablePred OptionCode := fun _ => inferInstanceAs (Decidable (_ ∧ _))

/-- An option that can be written down: its length fits in a byte. -/
structure WholeOption where
  code : UInt8
  data : Bytes
  isCode : OptionCode code
  fits : data.length < 256
  deriving DecidableEq

inductive AreaItem where
  | pad
  | option (o : WholeOption)
  deriving DecidableEq

/-- What ends the row of items. -/
inductive AreaEnd where
  /-- The message ends between two items. -/
  | exhausted
  /-- The end mark; what stands behind it means nothing. -/
  | mark (trailing : Bytes)
  /-- The message ends behind the code of an option. -/
  | unmeasured (code : UInt8) (isCode : OptionCode code)
  /-- The message ends in the data of an option. -/
  | cut (code len : UInt8) (data : Bytes) (isCode : OptionCode code) (short : data.length < len.toNat)
  deriving DecidableEq

structure OptionArea where
  items : List AreaItem
  ending : AreaEnd
  deriving DecidableEq

/-! ## Bytes and message types -/

namespace AreaItem

def bytes : AreaItem → Bytes
  | pad => [0]
  | option o => encodeOption (o.code, o.data)

/-- The message type that an item gives: the first data byte of a type option. -/
def type? : AreaItem → Option UInt8
  | pad => none
  | option o => if o.code = typeOption then o.data.head? else none

end AreaItem

namespace AreaEnd

def bytes : AreaEnd → Bytes
  | exhausted => []
  | mark trailing => 255 :: trailing
  | unmeasured code _ => [code]
  | cut code len data _ _ => code :: len :: data

/-- Of a type option that is cut off the first data byte may be there. -/
def type? : AreaEnd → Option UInt8
  | cut code _ data _ _ => if code = typeOption then data.head? else none
  | _ => none

end AreaEnd

namespace OptionArea

def bytes (a : OptionArea) : Bytes := a.items.flatMap AreaItem.bytes ++ a.ending.bytes

/-- The message type of an area: that of the first item which gives one. -/
def type? (a : OptionArea) : Option UInt8 := (a.items.findSome? AreaItem.type?).or a.ending.type?

/-- One more item in front. -/
def cons (item : AreaItem) (a : OptionArea) : OptionArea := { a with items := item :: a.items }

/-- Reads an area item by item, up to what ends it. -/
def parse : Bytes → OptionArea
  | [] => ⟨[], .exhausted⟩
  | code :: rest =>
    if code = 0 then cons .pad (parse rest)
    else if isCode : OptionCode code then
      match rest with
      | [] => ⟨[], .unmeasured code isCode⟩
      | len :: data =>
        if short : data.length < len.toNat then ⟨[], .cut code len data isCode short⟩
        else
          let o : WholeOption := ⟨code, data.take len.toNat, isCode,
            Nat.lt_of_le_of_lt (List.length_take_le ..) len.toNat_lt⟩
          cons (.option o) (parse (data.drop len.toNat))
    else ⟨[], .mark rest⟩
termination_by area => area.length
decreasing_by
  all_goals simp only [List.length_cons, List.length_drop]
  all_goals omega

theorem bytes_cons (item : AreaItem) (a : OptionArea) : (cons item a).bytes = item.bytes ++ a.bytes := by
  rw [bytes, cons, List.flatMap_cons, List.append_assoc, bytes]

theorem type?_cons (item : AreaItem) (a : OptionArea) : (cons item a).type? = item.type?.or a.type? := by
  rw [type?, cons, List.findSome?_cons]
  cases item.type? <;> rfl

/-! ## One reading for every byte string -/

/-- The length byte of an option that can be written down. -/
theorem toNat_length (o : WholeOption) : (UInt8.ofNat o.data.length).toNat = o.data.length := by
  rw [UInt8.toNat_ofNat', Nat.mod_eq_of_lt o.fits]

theorem parse_item (item : AreaItem) (rest : Bytes) : parse (item.bytes ++ rest) = cons item (parse rest) := by
  cases item with
  | pad => exact (parse.eq_2 ..).trans (if_pos rfl)
  | option o =>
    have length := toNat_length o
    have whole : ¬(o.data ++ rest).length < (UInt8.ofNat o.data.length).toNat := by
      rw [length, List.length_append]
      omega
    have split : encodeOption (o.code, o.data) ++ rest = o.code :: UInt8.ofNat o.data.length :: (o.data ++ rest) := rfl
    rw [AreaItem.bytes, split, parse, if_neg o.isCode.1, dif_pos o.isCode]
    dsimp only
    rw [dif_neg whole]
    simp only [length, List.take_left, List.drop_left]

theorem parse_ending (ending : AreaEnd) : parse ending.bytes = ⟨[], ending⟩ := by
  cases ending with
  | exhausted => exact parse.eq_1
  | mark trailing => rw [AreaEnd.bytes, parse, if_neg (by decide), dif_neg (by decide)]
  | unmeasured code isCode => rw [AreaEnd.bytes, parse, if_neg isCode.1, dif_pos isCode]
  | cut code len data isCode short =>
    rw [AreaEnd.bytes, parse, if_neg isCode.1, dif_pos isCode]
    exact dif_pos short

theorem parse_bytes (a : OptionArea) : parse a.bytes = a := by
  obtain ⟨items, ending⟩ := a
  induction items with
  | nil => exact parse_ending ending
  | cons item items ih =>
    have first : (⟨item :: items, ending⟩ : OptionArea) = cons item ⟨items, ending⟩ := rfl
    rw [first, bytes_cons, parse_item, ih]

theorem bytes_parse (area : Bytes) : (parse area).bytes = area := by
  induction area using parse.induct with
  | case1 => rw [parse]; rfl
  | case2 rest ih => rw [parse, if_pos rfl, bytes_cons, ih]; rfl
  | case3 code other isCode => rw [parse, if_neg other, dif_pos isCode]; rfl
  | case4 code other isCode len data short =>
    rw [parse, if_neg other, dif_pos isCode]
    dsimp only
    rw [dif_pos short]
    rfl
  | case5 code other isCode len data whole ih =>
    have length : (data.take len.toNat).length = len.toNat := List.length_take_of_le (Nat.not_lt.mp whole)
    rw [parse, if_neg other, dif_pos isCode]
    dsimp only
    rw [dif_neg whole, bytes_cons, ih]
    dsimp only [AreaItem.bytes, encodeOption]
    rw [length, UInt8.ofNat_toNat, List.cons_append, List.cons_append, List.take_append_drop]
  | case6 code rest other noCode =>
    have mark : code = 255 := Classical.not_not.mp fun h => noCode ⟨other, h⟩
    rw [parse, if_neg other, dif_neg noCode, mark]
    rfl

/-- **Every byte string is an option area in exactly one way.** -/
theorem parse_eq_iff {area : Bytes} {a : OptionArea} : parse area = a ↔ a.bytes = area :=
  ⟨fun read => read ▸ bytes_parse area, fun written => written ▸ parse_bytes a⟩

end OptionArea

/-! ## The message type -/

theorem typeInOptions_pad (rest : Bytes) : typeInOptions (0 :: rest) = typeInOptions rest :=
  (typeInOptions.eq_def _).trans (if_pos rfl)

theorem typeInOptions_mark (rest : Bytes) : typeInOptions (255 :: rest) = none :=
  (typeInOptions.eq_def _).trans ((if_neg (by decide)).trans (if_pos rfl))

theorem typeInOptions_unmeasured {code : UInt8} (isCode : OptionCode code) : typeInOptions [code] = none := by
  rw [typeInOptions, if_neg isCode.1, if_neg isCode.2]

theorem typeInOptions_measured {code : UInt8} (isCode : OptionCode code) (len : UInt8) (data : Bytes) :
    typeInOptions (code :: len :: data) =
      if code = typeOption ∧ 1 ≤ len.toNat then data.head? else typeInOptions (data.drop len.toNat) := by
  rw [typeInOptions, if_neg isCode.1, if_neg isCode.2]

theorem typeInOptions_item (item : AreaItem) (rest : Bytes) :
    typeInOptions (item.bytes ++ rest) = item.type?.or (typeInOptions rest) := by
  cases item with
  | pad => exact typeInOptions_pad rest
  | option o =>
    have split : (AreaItem.option o).bytes ++ rest = o.code :: UInt8.ofNat o.data.length :: (o.data ++ rest) := rfl
    rw [split, typeInOptions_measured o.isCode, OptionArea.toNat_length, List.drop_left, AreaItem.type?]
    by_cases isType : o.code = typeOption
    · cases data : o.data <;> simp [isType]
    · simp [isType]

theorem typeInOptions_ending (ending : AreaEnd) : typeInOptions ending.bytes = ending.type? := by
  cases ending with
  | exhausted => exact typeInOptions.eq_1
  | mark trailing => exact typeInOptions_mark trailing
  | unmeasured code isCode => exact typeInOptions_unmeasured isCode
  | cut code len data isCode short =>
    have some : 1 ≤ len.toNat := by omega
    rw [AreaEnd.bytes, typeInOptions_measured isCode, AreaEnd.type?]
    by_cases isType : code = typeOption
    · rw [if_pos ⟨isType, some⟩, if_pos isType]
    · -- what is skipped reaches past the end of the message
      rw [if_neg fun both => isType both.1, if_neg isType, List.drop_eq_nil_of_le (Nat.le_of_lt short), typeInOptions]

theorem typeInOptions_bytes (a : OptionArea) : typeInOptions a.bytes = a.type? := by
  obtain ⟨items, ending⟩ := a
  induction items with
  | nil => exact typeInOptions_ending ending
  | cons item items ih =>
    have first : (⟨item :: items, ending⟩ : OptionArea) = .cons item ⟨items, ending⟩ := rfl
    rw [first, OptionArea.bytes_cons, typeInOptions_item, ih, OptionArea.type?_cons]

/-! ## The walk through a message -/

/-- The walk from a position of a message on, and the message type that it comes to. -/
inductive Finds (message : Bytes) : Nat → Option UInt8 → Prop
  | exhausted {i : Nat} (past : message[i]? = none) : Finds message i none
  | mark {i : Nat} (here : message[i]? = some 255) : Finds message i none
  | pad {i : Nat} {found : Option UInt8} (here : message[i]? = some 0) (later : Finds message (i + 1) found) :
      Finds message i found
  | unmeasured {i : Nat} {code : UInt8} (here : message[i]? = some code) (isCode : OptionCode code)
      (missing : message[i + 1]? = none) : Finds message i none
  /-- A type option that has data decides, also if the message ends before its first data byte. -/
  | decided {i : Nat} {len : UInt8} (here : message[i]? = some typeOption) (length : message[i + 1]? = some len)
      (some : 1 ≤ len.toNat) : Finds message i message[i + 2]?
  | skipped {i : Nat} {code len : UInt8} {found : Option UInt8} (here : message[i]? = some code)
      (isCode : OptionCode code) (length : message[i + 1]? = some len) (other : ¬(code = typeOption ∧ 1 ≤ len.toNat))
      (later : Finds message (i + 2 + len.toNat) found) : Finds message i found

section

variable {message : Bytes} {i : Nat}

theorem drop_of_some {b : UInt8} (here : message[i]? = some b) : message.drop i = b :: message.drop (i + 1) := by
  obtain ⟨inside, rfl⟩ := List.getElem?_eq_some_iff.mp here
  exact List.drop_eq_getElem_cons inside

theorem drop_of_none (past : message[i]? = none) : message.drop i = [] :=
  List.drop_eq_nil_of_le (List.getElem?_eq_none_iff.mp past)

theorem some_of_drop {b : UInt8} {rest : Bytes} (area : message.drop i = b :: rest) :
    message[i]? = some b ∧ message.drop (i + 1) = rest := by
  constructor
  · rw [← List.head?_drop, area, List.head?_cons]
  · rw [← List.tail_drop, area, List.tail_cons]

theorem none_of_drop (area : message.drop i = []) : message[i]? = none := by
  rw [← List.head?_drop, area, List.head?_nil]

theorem Finds.eq {found : Option UInt8} (walk : Finds message i found) : typeInOptions (message.drop i) = found := by
  induction walk with
  | exhausted past => rw [drop_of_none past, typeInOptions]
  | mark here => rw [drop_of_some here, typeInOptions_mark]
  | pad here _ ih => rw [drop_of_some here, typeInOptions_pad, ih]
  | unmeasured here isCode missing =>
    rw [drop_of_some here, drop_of_none missing, typeInOptions_unmeasured isCode]
  | decided here length some =>
    rw [drop_of_some here, drop_of_some length, typeInOptions_measured (by decide), if_pos ⟨rfl, some⟩, List.head?_drop]
  | skipped here isCode length other _ ih =>
    rw [drop_of_some here, drop_of_some length, typeInOptions_measured isCode, if_neg other, List.drop_drop, ih]

/-- The walk comes to an end from every position. -/
theorem finds_typeInOptions (message : Bytes) (i : Nat) : Finds message i (typeInOptions (message.drop i)) := by
  generalize given : message.drop i = area
  induction area using typeInOptions.induct generalizing i with
  | case1 =>
    rw [typeInOptions]
    exact .exhausted (none_of_drop given)
  | case2 rest ih =>
    obtain ⟨here, after⟩ := some_of_drop given
    rw [typeInOptions_pad]
    exact .pad here (ih (i + 1) after)
  | case3 rest =>
    rw [typeInOptions_mark]
    exact .mark (some_of_drop given).1
  | case4 code notPad notEnd =>
    obtain ⟨here, after⟩ := some_of_drop given
    rw [typeInOptions_unmeasured ⟨notPad, notEnd⟩]
    exact .unmeasured here ⟨notPad, notEnd⟩ (none_of_drop after)
  | case5 code notPad notEnd len data decides =>
    obtain ⟨here, after⟩ := some_of_drop given
    obtain ⟨length, area⟩ := some_of_drop after
    obtain ⟨rfl, some⟩ := decides
    rw [typeInOptions_measured ⟨notPad, notEnd⟩, if_pos ⟨rfl, some⟩, ← area, List.head?_drop]
    exact .decided here length some
  | case6 code notPad notEnd len data other ih =>
    obtain ⟨here, after⟩ := some_of_drop given
    obtain ⟨length, area⟩ := some_of_drop after
    rw [typeInOptions_measured ⟨notPad, notEnd⟩, if_neg other]
    refine .skipped here ⟨notPad, notEnd⟩ length other (ih _ ?_)
    rw [← area, List.drop_drop]

end

/-- **The message type is what the grammar says.** For every message the walk from the first option on
comes to an end, at the message type and at nothing else. So if a message has some fixed fields and
then an option area, its type is that of the first item of the area which gives one; in particular, in
front of an end mark it is the first data byte of the first type option that has data, whatever stands in
the data of other options and behind the mark. -/
theorem message_type_found :
    (∀ (message : Bytes) (found : Option UInt8), Finds message optionsStart found ↔ messageType? message = found) ∧
    (∀ (fields : Vector UInt8 optionsStart) (area : OptionArea),
      messageType? (fields.toList ++ area.bytes) = area.type?) ∧
    ∀ (fields : Vector UInt8 optionsStart) (items : List AreaItem) (trailing : Bytes),
      messageType? (fields.toList ++ (items.flatMap AreaItem.bytes ++ 255 :: trailing)) =
        items.findSome? AreaItem.type? := by
  have inArea (fields : Vector UInt8 optionsStart) (area : OptionArea) :
      messageType? (fields.toList ++ area.bytes) = area.type? := by
    rw [messageType?, List.drop_left' fields.length_toList, typeInOptions_bytes]
  refine ⟨fun message found => ⟨Finds.eq, ?_⟩, inArea, fun fields items trailing => ?_⟩
  · rintro rfl
    exact finds_typeInOptions message optionsStart
  · exact (inArea fields ⟨items, .mark trailing⟩).trans Option.or_none

end EtherChip.Dhcp
