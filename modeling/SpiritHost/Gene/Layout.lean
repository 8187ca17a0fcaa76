import SpiritHost.Error

/-!
# Layouts

Fields stand in the order of their declaration, each at the lowest offset that suits its alignment.
A gene is aligned like its widest field, and its size is padded to a multiple of that. Offsets and
sizes are 32-bit words; where a sum of them is none, there is no layout and no error either, but a
panic.
-/

namespace SpiritHost

/-- A sum of words, which must be one. -/
def checkedSum (a b : UInt32) : Except Error UInt32 :=
  if a.toNat + b.toNat < UInt32.size then .ok (a + b) else .error (.panic .overflow)

/-- The word is a power of two. -/
def isPowerOfTwo (word : UInt32) : Bool := word != 0 && word &&& (word - 1) == 0

/-- The least multiple of an alignment that is not below an offset. The alignment must be a power of
two (`align_up`). -/
def alignUp (offset alignment : UInt32) : Except Error UInt32 :=
  if isPowerOfTwo alignment then do
    let beyond ← checkedSum offset alignment
    .ok ((beyond - 1) &&& ~~~(alignment - 1))
  else .error (.panic .assertion)

/-- A field with its place. -/
structure FieldLayout where
  name : String
  type : FieldType
  /-- Distance in bytes from the gene's address. -/
  offset : UInt32
deriving DecidableEq, Repr

/-- The layout of a gene. It describes memory and owns none. -/
structure GeneLayout where
  name : String
  fields : List FieldLayout
  size : UInt32
  alignment : UInt32
deriving DecidableEq, Repr

namespace GeneLayout

/-- A layout in the making: the fields placed so far, where they end, and their alignment. -/
structure Progress where
  placed : List FieldLayout
  finish : UInt32
  alignment : UInt32
deriving DecidableEq, Repr

/-- Before the first field. -/
def Progress.start : Progress := ⟨[], 0, 1⟩

/-- Places one more field. -/
def Progress.place (p : Progress) (name : String) (type : FieldType) : Except Error Progress := do
  let offset ← alignUp p.finish type.alignment
  let finish ← checkedSum offset type.size
  .ok ⟨p.placed ++ [⟨name, type, offset⟩], finish, max p.alignment type.alignment⟩

/-- Places fields in order; a name that is already taken is refused. -/
def place (gene : String) : List (String × FieldType) → Progress → Except Error Progress
  | [], p => .ok p
  | (name, type) :: rest, p =>
    if p.placed.any (·.name == name) then .error (.field gene name .duplicate)
    else do place gene rest (← p.place name type)

/-- The layout of a gene with the given fields (`GeneLayout::new`). -/
def ofFields (name : String) (fields : List (String × FieldType)) : Except Error GeneLayout := do
  let p ← place name fields .start
  let size ← alignUp p.finish p.alignment
  .ok ⟨name, p.placed, size, p.alignment⟩

/-- The field of the given name (`GeneLayout::field`). -/
def field? (g : GeneLayout) (name : String) : Option FieldLayout :=
  g.fields.find? (·.name == name)

/-- A gene without fields (`GeneLayout::is_empty`). -/
def isEmpty (g : GeneLayout) : Bool := g.fields.isEmpty

/-- The address of a field in the gene at the given address (`field_address`). -/
def fieldAddress (g : GeneLayout) (address : UInt32) (field : FieldLayout) : Except Error UInt32 :=
  if address.toNat + field.offset.toNat < UInt32.size then .ok (address + field.offset)
  else .error (.field g.name field.name (.overflow address field.offset))

end GeneLayout

/-- The values of a gene's fields, by name. -/
abbrev Record := List (String × FieldValue)

namespace Record

/-- The value of a field. -/
def get? (r : Record) (name : String) : Option FieldValue := r.lookup name

/-- The record with a field set, in the order of the names. -/
def insert (name : String) (value : FieldValue) : Record → Record
  | [] => [(name, value)]
  | (n, v) :: rest =>
    if name < n then (name, value) :: (n, v) :: rest
    else if name = n then (name, value) :: rest
    else (n, v) :: insert name value rest

/-- A record from values in any order; of equal names the last one counts. -/
def ofList (values : List (String × FieldValue)) : Record :=
  values.foldl (fun r (name, value) => r.insert name value) []

end Record

end SpiritHost
