-- `ProtobufProcessor`: what is changed in decoded content, on its way in and
-- on its way out, as the options of the fields say.
import DevconSpark.Binary
import DevconSpark.Models
import DevconSpark.TimeUtils
import DevconSpark.UnitConversion

open py_text py_dict py_number py_value binary devcon_spark.exceptions devcon_spark.models
open devcon_spark.codec.descriptor devcon_spark.codec.time_utils
open devcon_spark.codec.unit_conversion

namespace devcon_spark.codec.processor

/-! ## Keys and addresses -/

/-- The field numbers from the root on. `None` stands for an index, and for a field that is
no leaf. -/
abbrev Address := List (Option Nat)

def symbols : Text := "[]<>".toList

/-- `self._postfix_pattern.findall(key)[0]`: what stands before a bracket, and what follows
it, up to a comma or a bracket. -/
def splitKey (key : Text) : Except Exn (Text × Text) :=
  let r := key.dropWhile (· ∈ symbols)
  let base_key := r.takeWhile (· ∉ symbols)
  let inside := (r.dropWhile (· ∉ symbols)).drop 1
  if base_key = [] then .error { kind := .IndexError, msg := "list index out of range" }
  else .ok (base_key, inside.takeWhile fun c => c ∉ symbols ∧ c ≠ ',')

structure OptionElement where
  field : FieldDescriptor
  /-- The key for `obj` in python ({key:obj}) -/
  key : Text
  /-- The key for `obj` with any unit/link postfixes removed -/
  base_key : Text
  /-- The postfixed content removed from `key` to make `base_key` -/
  postfixed : Text
  address : Address

def matches_address (field : MaskField) (address : Address) : Bool :=
  (field.address.zip address).all fun (fa_tag, ma_tag) => ma_tag.map Int.ofNat = some fa_tag

/-! ## The walk -/

/-- What becomes of an entry that was visited: its key and its value, or nothing. -/
abbrev Visit := OptionElement → Value → Except Exn (Option (Text × Value))

/-- A value that has no parts. -/
def walkScalar (field : FieldDescriptor) (value : Value) : Except Exn Value :=
  if field.message_type.isNone then .ok value
  else if field.label_repeated then
    .error { kind := .TypeError, msg := s!"'{typeName value}' object is not iterable" }
  else .error (noAttribute value "items")

section
variable (pool : Pool)

/-- `desc.fields_by_name[base_key]`, where `desc` may be missing. -/
def fieldOf (message : Option Text) (base_key : Text) : Except Exn FieldDescriptor :=
  match message with
  | none => .error
    { kind := .AttributeError, msg := "'NoneType' object has no attribute 'fields_by_name'" }
  | some m =>
    match fields_by_name (pool.messages m) base_key with
    | some field => .ok field
    | none => .error { kind := .KeyError, msg := quoted (String.ofList base_key) }

/-- `field.message_type.fields_by_name['value'].message_type`, for the entry type of a map. -/
def valueType (entry : Text) : Except Exn (Option Text) :=
  (fieldOf pool (some entry) "value".toList).map FieldDescriptor.message_type

/-- A submessage with content is no leaf. -/
def elementAddress (field : FieldDescriptor) (address : Address) (value : Value) : Address :=
  match field.message_type, field.label_repeated, value with
  | some _, false, .none => address
  | some _, false, _ => address ++ [none]
  | _, _, _ => address

variable (visit : Visit)

mutual

/-- Walks over a copy of the entries of `obj`, and visits each. A key that is in `written`
was given to an entry before, so what stands there is not the value of the copy. -/
def walkItems (message : Option Text) (parent : Address) (items obj : Dict)
    (written : List Text) : Except Exn Dict :=
  match items with
  | [] => .ok obj
  | (key, value) :: items => do
    let (base_key, postfixed) ← splitKey key
    let field ← fieldOf pool message base_key
    let address := parent ++ [some field.number]
    let walked ← walkValue field address value
    let obj := if written.contains key then obj else setItem obj key walked
    let element : OptionElement :=
      { field, key, base_key, postfixed, address := elementAddress field address value }
    match ← visit element (← getItem obj key) with
    | none => walkItems message parent items (delItem obj key) written
    | some (new_key, new_value) =>
      let obj := if key ≠ new_key then delItem obj key else obj
      walkItems message parent items (setItem obj new_key new_value) (new_key :: written)

/-- The value of a field, after its parts were visited. -/
def walkValue (field : FieldDescriptor) (address : Address) (value : Value) :
    Except Exn Value :=
  match value with
  | .none => .ok .none
  | .dict kvs =>
    match field.message_type with
    | none => .ok (.dict kvs)
    | some m =>
      if field.label_repeated then do
        let message ← valueType pool m
        return .dict (← walkMap message (address ++ [none]) kvs)
      else (walkItems (some m) address kvs kvs []).map Value.dict
  | .list vs =>
    match field.message_type with
    | none => .ok (.list vs)
    | some m =>
      if field.label_repeated then (walkList (some m) (address ++ [none]) vs).map Value.list
      else .error (noAttribute (.list vs) "items")
  | .str t =>
    -- a repeated field would be walked by its characters
    if field.message_type.isNone || (field.label_repeated && t.isEmpty) then .ok (.str t)
    else .error (noAttribute (.str t) "items")
  | .bool b => walkScalar field (.bool b)
  | .int i => walkScalar field (.int i)
  | .float x => walkScalar field (.float x)

def walkList (message : Option Text) (address : Address) (values : List Value) :
    Except Exn (List Value) :=
  match values with
  | [] => .ok []
  | v :: vs => do
    let v ← walkChild message address v
    let vs ← walkList message address vs
    return v :: vs

def walkMap (message : Option Text) (address : Address) (kvs : Dict) : Except Exn Dict :=
  match kvs with
  | [] => .ok []
  | (k, v) :: kvs => do
    let v ← walkChild message address v
    let kvs ← walkMap message address kvs
    return (k, v) :: kvs

def walkChild (message : Option Text) (address : Address) (value : Value) : Except Exn Value :=
  match value with
  | .dict kvs => (walkItems message address kvs kvs []).map Value.dict
  | .none => .error (noAttribute .none "items")
  | .bool b => .error (noAttribute (.bool b) "items")
  | .int i => .error (noAttribute (.int i) "items")
  | .float x => .error (noAttribute (.float x) "items")
  | .str t => .error (noAttribute (.str t) "items")
  | .list vs => .error (noAttribute (.list vs) "items")

end

/-! ## The elements of the walk -/

mutual

/-- The elements that are visited, in order. -/
def elementsOfItems (message : Option Text) (parent : Address) (items : Dict) :
    List OptionElement :=
  match items with
  | [] => []
  | (key, value) :: items =>
    match splitKey key with
    | .error _ => []
    | .ok (base_key, postfixed) =>
      match fieldOf pool message base_key with
      | .error _ => []
      | .ok field =>
        let address := parent ++ [some field.number]
        let element : OptionElement :=
          { field, key, base_key, postfixed, address := elementAddress field address value }
        elementsOfValue field address value ++ element :: elementsOfItems message parent items

def elementsOfValue (field : FieldDescriptor) (address : Address) (value : Value) :
    List OptionElement :=
  match value with
  | .dict kvs =>
    match field.message_type, field.label_repeated with
    | none, _ => []
    | some m, true =>
      match valueType pool m with
      | .ok message => elementsOfMap message (address ++ [none]) kvs
      | .error _ => []
    | some m, false => elementsOfItems (some m) address kvs
  | .list vs =>
    match field.message_type, field.label_repeated with
    | some m, true => elementsOfList (some m) (address ++ [none]) vs
    | _, _ => []
  | .none | .bool _ | .int _ | .float _ | .str _ => []

def elementsOfList (message : Option Text) (address : Address) (values : List Value) :
    List OptionElement :=
  match values with
  | [] => []
  | v :: vs => elementsOfChild message address v ++ elementsOfList message address vs

def elementsOfMap (message : Option Text) (address : Address) (kvs : Dict) :
    List OptionElement :=
  match kvs with
  | [] => []
  | (_, v) :: kvs => elementsOfChild message address v ++ elementsOfMap message address kvs

def elementsOfChild (message : Option Text) (address : Address) (value : Value) :
    List OptionElement :=
  match value with
  | .dict kvs => elementsOfItems message address kvs
  | .none | .bool _ | .int _ | .float _ | .str _ | .list _ => []

end

end

/-! ## Values -/

/-- What the processor uses and does not decide. -/
structure Packages where
  /-- `Quantity(amount, unit).to(target).magnitude` -/
  quantity : (amount unit : Value) → (target : Text) → Except Exn Value
  ciso8601 : Text → Except Exn Datetime
  /-- How many seconds local time is ahead of UTC. -/
  localOffset : Int → Int
  /-- What `ipaddress` reads as an IPv6 address. -/
  ipv6 : Text → Option Nat
  repr : Value → Text

def notBytes (value : Value) : Exn :=
  { kind := .TypeError
    msg := s!"argument should be bytes, buffer or ASCII string, not '{typeName value}'" }

/-- `unhexlify(value)` -/
def unhexlifyValue (value : Value) : Except Exn Bytes :=
  match value with
  | .str t =>
    if t.any (128 ≤ ·.toNat) then
      .error { kind := .ValueError, msg := "string argument should contain only ASCII characters" }
    else match unhexlify t with
      | some bs => .ok bs
      | none => .error
        { kind := .BinasciiError
          msg := if t.length % 2 = 0 then "Non-hexadecimal digit found" else "Odd-length string" }
  | v => .error (notBytes v)

def hex_to_int (s : Value) : Except Exn Value :=
  (unhexlifyValue s).map fun bs => .int (fromBytes bs)

def int_to_hex (i : Value) : Except Exn Value := do
  let i ← toInt i
  if i < 0 then
    throw { kind := .OverflowError, msg := "can't convert negative int to unsigned" }
  else match toBytes 8 i.toNat with
    | some bs => return .str (hexlify bs)
    | none => throw { kind := .OverflowError, msg := "int too big to convert" }

def hex_to_b64 (s : Value) : Except Exn Value :=
  (unhexlifyValue s).map fun bs => .str (b64encode bs)

def b64_to_hex (s : Value) : Except Exn Value :=
  match s with
  | .str t =>
    if t.any (128 ≤ ·.toNat) then
      .error { kind := .ValueError, msg := "string argument should contain only ASCII characters" }
    else match b64decode t with
      | some bs => .ok (.str (hexlify bs))
      | none => .error { kind := .BinasciiError, msg := "Incorrect padding" }
  | v => .error (notBytes v)

/-- `htonl(i)` and `ntohl(i)` -/
def swapNumber (i : Int) : Except Exn Nat :=
  if i < 0 then
    .error { kind := .OverflowError, msg := "can't convert negative value to unsigned int" }
  else match swapBytes i.toNat with
    | some n => .ok n
    | none => .error { kind := .OverflowError, msg := "int larger than 32 bits" }

def int_to_ipv4 (ip : Value) : Except Exn Value :=
  match ip with
  | .int i => (swapNumber i).map fun n => .str (ipv4Text n)
  | .bool b => (swapNumber (if b then 1 else 0)).map fun n => .str (ipv4Text n)
  | v => .error { kind := .TypeError, msg := s!"expected int, {typeName v} found" }

section
variable (env : Packages) (cv : UnitConverter)

/-- `int(ipaddress.ip_address(ip))` -/
def ip_address (ip : Value) : Except Exn Nat :=
  let noAddress : Exn :=
    { kind := .ValueError, msg := "does not appear to be an IPv4 or IPv6 address" }
  match ip with
  | .int i => if 0 ≤ i ∧ i < 2 ^ 128 then .ok i.toNat else .error noAddress
  | .bool b => .ok (if b then 1 else 0)
  | .str t =>
    match (ipv4Value? t).or (env.ipv6 t) with
    | some n => .ok n
    | none => .error noAddress
  | _ => .error noAddress

def ipv4_to_int (ip : Value) : Except Exn Value := do
  let n ← swapNumber (← ip_address env ip)
  return .int n

def _encode_unit (value : Value) (unit_type : String) (postfixed : Value) : Except Exn Value :=
  match value with
  | .dict kvs => do
    let user_value ← getItem kvs "value".toList
    let user_unit := (get? kvs "unit".toList).getD .none
    to_sys_value env.quantity cv user_value unit_type user_unit
  | v => to_sys_value env.quantity cv v unit_type postfixed

/-! ## pre_encode -/

/-- `json_format._INT_TYPES` -/
def isIntType (type : FieldType) : Bool := type ∈ [.INT32, .INT64, .UINT32, .UINT64]

/-- `if b: value = f(value)` -/
def applyIf (b : Bool) (f : Value → Except Exn Value) (value : Value) : Except Exn Value :=
  if b then f value else .ok value

theorem applyIf_pos {p : Prop} [Decidable p] (h : p) (f : Value → Except Exn Value)
    (value : Value) : applyIf p f value = f value := by
  rw [applyIf, decide_eq_true h, if_pos rfl]

theorem applyIf_neg {p : Prop} [Decidable p] (h : ¬ p) (f : Value → Except Exn Value)
    (value : Value) : applyIf p f value = .ok value := by
  rw [applyIf, decide_eq_false h, if_neg Bool.false_ne_true]

@[simp] theorem applyIf_true (f : Value → Except Exn Value) (value : Value) :
    applyIf true f value = f value := rfl

@[simp] theorem applyIf_false (f : Value → Except Exn Value) (value : Value) :
    applyIf false f value = .ok value := rfl

/-- The id of a link that is a typed object. -/
def linkId (value : Value) : Except Exn Value :=
  match value with
  | .dict kvs => getItem kvs "id".toList
  | v => .ok v

/-- `_convert_value` of `pre_encode`. -/
def encode_value (element : OptionElement) (value : Value) : Except Exn Value := do
  let options := element.field.opts
  let value ← applyIf (options.unit ≠ .NotSet)
    (_encode_unit env cv · options.unit.Name (.str element.postfixed)) value
  let value ← applyIf options.objtype.isSome linkId value
  let value ← applyIf (options.scale ≠ 0) (timesInt · options.scale) value
  let value ← applyIf options.hexed hex_to_int value
  let value ← applyIf options.hexstr hex_to_b64 value
  let value ← applyIf options.ipv4address (ipv4_to_int env) value
  let value ← applyIf options.datetime
    (serialize_datetime env.ciso8601 env.localOffset env.repr · .SECONDS) value
  applyIf (isIntType element.field.type) (fun value => (roundInt value).map Value.int) value

def isNone : Value → Bool
  | .none => true
  | _ => false

/-- The options that strip a value from protobuf input. -/
def stripped (filter_values : Bool) (options : FieldOpts) : Bool :=
  options.ignored || (filter_values && options.readonly)

def encodeElement (filter_values : Bool) : Visit := fun element new_value => do
  if stripped filter_values element.field.opts then return none
  else match new_value with
    | .none => return none
    | .list vs =>
      let vs ← (vs.filter (! isNone ·)).mapM (encode_value env cv element)
      return some (element.base_key, .list vs)
    | v => return some (element.base_key, ← encode_value env cv element v)

/-- Only insert a field mask for the `repeated` field itself, not its children. -/
def patchField (filter_values : Bool) (element : OptionElement) : Option MaskField :=
  if stripped filter_values element.field.opts then none
  else (element.address.mapM id).map fun tags => { address := tags.map Int.ofNat }

def contentOf (payload : DecodedPayload) : Except Exn Dict :=
  match payload.content with
  | some content => .ok content
  | none => .error (noAttribute .none "items")

/-- Modifies `payload` based on Protobuf options and dict key postfixes. -/
def pre_encode (pool : Pool) (desc : Text) (payload : DecodedPayload) (filter_values : Bool) :
    Except Exn DecodedPayload := do
  let content ← contentOf payload
  let visit := encodeElement env cv filter_values
  let encoded ← walkItems pool visit (some desc) [] content content []
  let patched := if payload.maskMode = .INCLUSIVE
    then (elementsOfItems pool (some desc) [] content).filterMap (patchField filter_values) else []
  return { payload with content := some encoded, maskFields := payload.maskFields ++ patched }

/-! ## post_decode -/

inductive MetadataOpt
  | POSTFIX | TYPED
  deriving DecidableEq

def metadata_opt (mode : ReadMode) : MetadataOpt := if mode = .LOGGED then .POSTFIX else .TYPED

def date_fmt_opt (mode : ReadMode) : DateFormatOpt := if mode = .LOGGED then .SECONDS else .ISO8601

def quantityValue (options : FieldOpts) (user_unit : Text) (value : Value) : Value :=
  .dict ([("__bloxtype".toList, .str "Quantity".toList), ("unit".toList, .str user_unit),
    ("value".toList, value)] ++ if options.readonly then [("readonly".toList, .bool true)] else [])

def linkValue (link_type : Text) (value : Value) : Value :=
  .dict [("__bloxtype".toList, .str "Link".toList), ("type".toList, .str link_type),
    ("id".toList, value)]

/-- A value that is typed or postfixed: `typed` makes the object. -/
def withMetadata (mode : ReadMode) (typed : Value → Value) (value : Value) : Value :=
  match metadata_opt mode with
  | .TYPED => typed value
  | .POSTFIX => value

/-- What `_convert_value` makes of a value without metadata. -/
def decode_plain (mode : ReadMode) (options : FieldOpts) (value : Value) : Except Exn Value :=
  if options.hexed then int_to_hex value
  else if options.hexstr then b64_to_hex value
  else if options.ipv4address then int_to_ipv4 value
  else if options.datetime then
    serialize_datetime env.ciso8601 env.localOffset env.repr value (date_fmt_opt mode)
  else .ok value

/-- `_convert_value` of `post_decode`. -/
def decode_value (mode : ReadMode) (options : FieldOpts) (excluded : Bool) (user_unit : Text)
    (value : Value) : Except Exn Value := do
  let absent := excluded || (options.null_if_zero && isZero value)
  let value ← applyIf (options.scale ≠ 0) (overInt · options.scale) value
  if options.unit ≠ .NotSet then
    (if absent then .ok .none else to_user_value env.quantity cv value options.unit.Name).map
      (withMetadata mode (quantityValue options user_unit))
  else match options.objtype with
    | some link_type =>
      .ok (withMetadata mode (linkValue link_type) (if absent then .none else value))
    | none => if absent then .ok .none else decode_plain env mode options value

/-- Whether the mask leaves a field out. -/
def excludes (maskMode : MaskMode) (maskFields : List MaskField) (address : Address) : Bool :=
  let masked := maskFields.any (matches_address · address)
  match maskMode with
  | .NO_MASK => false
  | .INCLUSIVE => ! masked
  | .EXCLUSIVE => masked

/-- The options that strip a value from output. -/
def filtered (mode : ReadMode) (filter_values : Bool) (options : FieldOpts) : Bool :=
  options.ignored || (filter_values &&
    ((mode = .STORED && ! options.stored) || (mode = .LOGGED && ! options.logged)))

/-- If metadata is postfixed, we may need to update the key. -/
def decodedKey (mode : ReadMode) (options : FieldOpts) (user_unit key : Text) : Text :=
  match metadata_opt mode with
  | .TYPED => key
  | .POSTFIX =>
    if options.unit ≠ .NotSet then key ++ '[' :: user_unit ++ [']']
    else match options.objtype with
      | some link_type => key ++ '<' :: link_type ++ ['>']
      | none => key

def decodeElement (mode : ReadMode) (filter_values : Bool) (maskMode : MaskMode)
    (maskFields : List MaskField) : Visit := fun element new_value => do
  let options := element.field.opts
  let excluded := excludes maskMode maskFields element.address
  if filtered mode filter_values options then return none
  else
    let user_unit ← to_user_unit cv options.unit.Name
    let new_key := decodedKey mode options user_unit element.key
    let convert := decode_value env cv mode options excluded user_unit
    match new_value with
    | .list vs =>
      let vs := if options.omit_if_zero then vs.filter (! isZero ·) else vs
      return some (new_key, .list (← vs.mapM convert))
    | v =>
      -- Filter values that should be omitted entirely
      if options.omit_if_zero && isZero v then return none
      else return some (new_key, ← convert v)

/-- Post-processes protobuf data based on protobuf / codec options. -/
def post_decode (pool : Pool) (desc : Text) (payload : DecodedPayload) (mode : ReadMode)
    (filter_values : Bool) : Except Exn DecodedPayload := do
  let content ← contentOf payload
  let visit := decodeElement env cv mode filter_values payload.maskMode payload.maskFields
  let decoded ← walkItems pool visit (some desc) [] content content []
  return { payload with content := some decoded }

end

end devcon_spark.codec.processor
