-- The stream parser (`connection/cbox_parser.py`): a buffer from which two
-- patterns take messages, first the annotations, then the lines of data.
import DevconSpark.PyText

open py_text

namespace devcon_spark.cbox_parser

/-! ## The patterns -/

/-- A pattern `{start}(?P<message>[^{excluded}]*?){close}`. Without a start
character it is anchored with `^` at the start of the buffer. -/
structure Pattern where
  start : Option Char
  excluded : Char
  close : Char

/-- `<(?P<message>[^<]*?)>` -/
def EVENT_PATTERN : Pattern := ⟨some '<', '<', '>'⟩

/-- `^(?P<message>[^^]*?)\n`: the class `[^^]` is every character but `^`. -/
def DATA_PATTERN : Pattern := ⟨none, '^', '\n'⟩

/-- The lazy group and the close character after it: the group and the text
after the match. -/
def lazyGroup (p : Pattern) : Text → Option (Text × Text)
  | [] => none
  | c :: cs =>
    if c = p.close then some ([], cs)
    else if c = p.excluded then none
    else (lazyGroup p cs).map fun (m, after) => (c :: m, after)

/-- The first match in the buffer: the text before it, the group, and the
text after it. -/
def search (p : Pattern) (buffer : Text) : Option (Text × Text × Text) :=
  match p.start with
  | none => (lazyGroup p buffer).map fun (m, after) => ([], m, after)
  | some s => go s buffer
where
  go (s : Char) : Text → Option (Text × Text × Text)
    | [] => none
    | c :: cs =>
      match (if c = s then lazyGroup p cs else none) with
      | some (m, after) => some ([], m, after)
      | none => (go s cs).map fun (before, m, after) => (c :: before, m, after)

@[simp] theorem event_close : EVENT_PATTERN.close = '>' := rfl
@[simp] theorem event_excluded : EVENT_PATTERN.excluded = '<' := rfl
@[simp] theorem data_close : DATA_PATTERN.close = '\n' := rfl
@[simp] theorem data_excluded : DATA_PATTERN.excluded = '^' := rfl

@[simp] theorem search_event (t : Text) :
    search EVENT_PATTERN t = search.go EVENT_PATTERN '<' t := rfl

@[simp] theorem search_data (t : Text) :
    search DATA_PATTERN t = (lazyGroup DATA_PATTERN t).map fun (m, after) => ([], m, after) := rfl

/-! ## The parser -/

structure CboxParser where
  buffer : Text := []
  events : List Text := []
  data : List Text := []
  deriving DecidableEq

/-- The loop of `_coerce_message_from_buffer`, with fuel for its turns: each
turn takes one match out of the buffer, and the loop ends at a turn that
takes none. It gives the messages and the buffer. -/
def coerceLoop (p : Pattern) : Nat → Text → List Text × Text
  | 0, buffer => ([], buffer)
  | fuel + 1, buffer =>
    if p.close ∈ buffer then
      match search p buffer with
      | none => ([], buffer)
      | some (before, m, after) =>
        let (ms, rest) := coerceLoop p fuel (before ++ after)
        (rstrip m :: ms, rest)
    else ([], buffer)

/-- `_coerce_message_from_buffer`. A match holds its close character, so the
loop takes no more turns than the buffer has characters. -/
def coerce_message_from_buffer (p : Pattern) (buffer : Text) : List Text × Text :=
  coerceLoop p buffer.length buffer

def push (s : CboxParser) (recv : Text) : CboxParser :=
  let (events, buffer) := coerce_message_from_buffer EVENT_PATTERN (s.buffer ++ recv)
  let (data, buffer) := coerce_message_from_buffer DATA_PATTERN buffer
  { buffer, events := s.events ++ events, data := s.data ++ data }

/-- The chunks of a stream, pushed one by one. -/
def pushAll (s : CboxParser) (chunks : List Text) : CboxParser := chunks.foldl push s

end devcon_spark.cbox_parser
