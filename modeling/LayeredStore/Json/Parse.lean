import LayeredStore.Json.Token

/-!
# Reading JSON

Tokens are taken one by one. What is open is kept in a list of frames, innermost first, so that
no depth of nesting is too great.
-/

namespace LayeredStore.Json

/-- An array or object around the value that is being read: what it holds already, latest
first, and for an object the name that the value gets. -/
inductive Frame
  | items (done : List Json)
  | fields (done : List (Option String × Json)) (name : Option String)

/-- What has been read, and so what may come next. -/
inductive Progress
  /-- A value must follow. -/
  | value (frames : List Frame)
  /-- An array has just been opened. -/
  | opened (frames : List Frame)
  /-- An array has an item more. -/
  | items (done : List Json) (frames : List Frame)
  /-- An object has just been opened. -/
  | unnamed (frames : List Frame)
  /-- An object must go on with a name. -/
  | nextName (done : List (Option String × Json)) (frames : List Frame)
  /-- An object must go on with a colon. -/
  | named (done : List (Option String × Json)) (name : Option String) (frames : List Frame)
  /-- An object has a field more. -/
  | fields (done : List (Option String × Json)) (frames : List Frame)
  /-- The value is complete, and nothing may follow. -/
  | complete (value : Json)

namespace Progress

/-- A value has been read inside the given frames. -/
def supply (v : Json) : List Frame → Progress
  | [] => .complete v
  | .items done :: frames => .items (v :: done) frames
  | .fields done name :: frames => .fields ((name, v) :: done) frames

/-- A token that begins a value. -/
def begin (frames : List Frame) : Token → Option Progress
  | .scalar v => some (supply v frames)
  | .leftBracket => some (.opened frames)
  | .leftBrace => some (.unnamed frames)
  | _ => none

/-- One token more, if it is allowed there. -/
def step : Progress → Token → Option Progress
  | .value frames, t => begin frames t
  | .opened frames, .rightBracket => some (supply (.array []) frames)
  | .opened frames, t => begin (.items [] :: frames) t
  | .items done frames, .comma => some (.value (.items done :: frames))
  | .items done frames, .rightBracket => some (supply (.array done.reverse) frames)
  | .unnamed frames, .rightBrace => some (supply (.object []) frames)
  | .unnamed frames, .scalar (.text name) => some (.named [] name frames)
  | .nextName done frames, .scalar (.text name) => some (.named done name frames)
  | .named done name frames, .colon => some (.value (.fields done name :: frames))
  | .fields done frames, .comma => some (.nextName done frames)
  | .fields done frames, .rightBrace => some (supply (.object done.reverse) frames)
  | _, _ => none

end Progress

/-- The value that the tokens write. -/
def ofTokens? (tokens : List Token) : Option Json :=
  match tokens.foldlM Progress.step (.value []) with
  | some (.complete v) => some v
  | _ => none

/-- The value that a text writes: one value, white space around it, nothing else. -/
def parse? (text : String) : Option Json := (Token.scan? text.toList).bind ofTokens?

end LayeredStore.Json
