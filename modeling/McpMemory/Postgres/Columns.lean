import McpMemory.Lib.Json

/-! What the columns of PostgreSQL take. -/
namespace McpMemory.Postgres

mutual

/- What `jsonb` takes: no text in it has a NUL character. -/
def isJsonb : Json → Bool
  | .str text => !text.toList.contains (Char.ofNat 0)
  | .arr items => itemsJsonb items
  | .obj fields => fieldsJsonb fields
  | _ => true

def itemsJsonb : List Json → Bool
  | [] => true
  | item::rest => isJsonb item && itemsJsonb rest

def fieldsJsonb : List (String × Json) → Bool
  | [] => true
  | (key,value)::rest => !key.toList.contains (Char.ofNat 0) && isJsonb value && fieldsJsonb rest

end

end McpMemory.Postgres
