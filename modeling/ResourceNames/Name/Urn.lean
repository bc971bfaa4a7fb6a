import ResourceNames.Name.Resource

/-!
# URNs

The written form `urn:ccrn:<type>.<group>/<version>/…`. Which fields its segments hold is said by a
template such as `urn:ccrn:<ccrn>/<cluster>/<name>`: after the head, which stands for the type key,
its segments are matched one by one, and the last one takes all that is left.
-/

namespace ResourceNames.Urn

/-- The template that only reads the type key. -/
def typeKeyTemplate : String := "urn:ccrn:<ccrn>"

/-- The segment that stands for the type key. -/
def typeKeySegment : List Char := "<ccrn>".toList

/-- The name between `<` and `>`, if a segment is just that with a non-empty name. -/
def placeholderName? (segment : List Char) : Option (List Char) :=
  match segment with
  | '<' :: rest =>
    match Text.before? ['>'] rest with
    | some (c :: cs) => some (c :: cs)
    | _ => none
  | _ => none

/-- The type key and what follows it after a `/`. -/
def splitTypeKey (input : String) (body : List Char) :
    Except ParseError (List Char × Option (List Char)) :=
  match Text.splitUpTo '/' 3 body with
  | name :: version :: rest =>
    if name.isEmpty || version.isEmpty then .error (.malformed (.noTypeKey input))
    else .ok (name ++ '/' :: version, rest.head?)
  | _ => .error (.malformed (.noTypeKey input))

/-- The segments of a template after its head. -/
def templateTail (template : String) (body : List Char) :
    Except ParseError (List (List Char)) :=
  let tail? :=
    match body.splitOn '/' with
    | head :: rest =>
      if head = typeKeySegment then some rest
      else
        match rest with
        | second :: tail => if head.isEmpty || second.isEmpty then none else some tail
        | [] => none
    | [] => none
  match tail? with
  | none => .error (.malformed (.templateHead template))
  | some tail =>
    if tail.contains typeKeySegment then .error (.malformed (.typeKeyInTail template)) else .ok tail

/-- Matches segments with those of a template; a value for a name that has one replaces it. -/
def matchSegments (input : String) (fields : Table String) :
    (expected actual : List (List Char)) → Except ParseError (Table String)
  | e :: expected, a :: actual =>
    match placeholderName? e with
    | some name =>
      if a.isEmpty then .error (.malformed (.emptySegment input (String.ofList e)))
      else
        matchSegments input (fields.insert (String.ofList name) (String.ofList a)) expected actual
    | none =>
      if e = a then matchSegments input fields expected actual
      else .error (.templateMismatch (String.ofList e) (String.ofList a))
  | _, _ => .ok fields

/-- The fields of a URN's body by the tail of the template. -/
def readFields (input template : String) (key : List Char) (rest : Option (List Char))
    (tail : List (List Char)) : Except ParseError (Table String) :=
  let fields := Table.empty.insert typeKeyField (String.ofList key)
  if tail.isEmpty then .ok fields
  else
    let segments :=
      match rest with
      | some (c :: cs) => Text.splitUpTo '/' tail.length (c :: cs)
      | _ => []
    if segments.length < tail.length then
      .error (.segmentCount template input tail.length segments.length)
    else matchSegments input fields tail segments

/-- The resource that a URN stands for when read with a template. -/
def parse (input template : String) : Except ParseError Resource := do
  let some body := Text.after? urnLead.toList input.toList
    | .error (.malformed (.notUrn input))
  let some templateBody := Text.after? urnLead.toList template.toList
    | .error (.malformed (.templateNotUrn template))
  let (key, rest) ← splitTypeKey input body
  let tail ← templateTail template templateBody
  let fields ← readFields input template key rest tail
  let resource ← Resource.ofFields .urn fields input
  return { resource with urnTemplateUsed := template }

/-- The type key of a URN. -/
def parseTypeKey (input : String) : Except ParseError String := do
  return (← parse input typeKeyTemplate).typeKey

/-- The URN of the given fields by a template. A placeholder without a field stays in the text. -/
def render (fields : Table String) (template : String) : String := Template.fill fields template

end ResourceNames.Urn

namespace ResourceNames.Resource

/-- The URN of a resource by `template`, or by the template it was read with if `template` is
empty. -/
def toUrn? (r : Resource) (template : String) : Option String :=
  let template := if template = "" then r.urnTemplateUsed else template
  if template = "" then none else some (Urn.render r.fields template)

end ResourceNames.Resource
