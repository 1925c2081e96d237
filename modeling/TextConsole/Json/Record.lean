import TextConsole.Json.Basic

/-!
# Records in JSON

A record is written as an object with a member for each of its fields, in any
order, or as an array of its fields in their own order. Either way fields may be
left out, and keep the values that the reading starts from: any of them in an
object, the last ones in an array. An object may have members that are no
fields, which are skipped. It may not name a field twice, and an array may not
be longer than the record has fields.
-/

namespace TextConsole.Json

/-- A field of a record: its name, and how its value is read into the record. -/
structure RecordField (α : Type) where
  name : String
  read : α → Json → Option α

namespace Record

variable {α : Type}

def field? (fields : List (RecordField α)) (name : String) : Option (RecordField α) :=
  fields.find? fun f => f.name = name

/-- Reads the members of an object in their order, after those of the fields
`seen`. -/
def readMembers (fields : List (RecordField α)) (seen : List String) (r : α) :
    List (Text × Json) → Option α
  | [] => some r
  | (none, _) :: _ => none
  | (some key, v) :: rest =>
      match field? fields key with
      | none => readMembers fields seen r rest
      | some f =>
          if key ∈ seen then none
          else
            match f.read r v with
            | none => none
            | some r => readMembers fields (key :: seen) r rest

/-- Reads the items of an array into the fields in turn. -/
def readItems (r : α) : List (RecordField α) → List Json → Option α
  | _, [] => some r
  | [], _ :: _ => none
  | f :: fields, v :: rest =>
      match f.read r v with
      | none => none
      | some r => readItems r fields rest

/-- Reads a record, starting from `r`. -/
def read (fields : List (RecordField α)) (r : α) : Json → Option α
  | obj members => readMembers fields [] r members
  | arr items => readItems r fields items
  | _ => none

end Record

end TextConsole.Json
