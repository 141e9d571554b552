import PlaybookRuns.Json.Shape
import PlaybookRuns.Query.Links
import PlaybookRuns.Run.Codec

/-!
# Pages

One page of a listing: objects with the selected fields, how many they are and how many there are
in all, and links to other pages; with its JSON form.
-/

namespace PlaybookRuns

open PlaybookRuns.Json PlaybookRuns.Query

/-- The members of a JSON object in ascending key order. -/
abbrev JsonObject := List (String × Json)

/-- One page of a listing. -/
structure ListPage where
  data : List JsonObject
  /-- How many objects the page holds. -/
  count : Int64
  /-- How many rows match, on this page and others. -/
  total : Int64
  links : Links

/-- Links as a JSON object; absent ones are left out. -/
def Query.Links.toJson (links : Links) : Json := Json.ofPresent [
  ("first", some (.string links.first)),
  ("last", some (.string links.last)),
  ("next", links.next.map .string),
  ("previous", links.previous.map .string)]

/-- The fields of links in declaration order. -/
def Query.Links.fields : List Shape.Field := [
  .of "first" Shape.text .required,
  .of "last" Shape.text .required,
  .of "next" (Shape.optional Shape.text) .defaulted,
  .of "previous" (Shape.optional Shape.text) .defaulted]

/-- The decoder of links. -/
def Query.Links.shape : Decoder Links := fun d ↦ do
  let found ← Shape.record fields d
  return {
    first := ← Shape.required "first" Shape.text found
    last := ← Shape.required "last" Shape.text found
    next := ← Shape.orDefault "next" (Shape.optional Shape.text) none found
    previous := ← Shape.orDefault "previous" (Shape.optional Shape.text) none found }

namespace ListPage

/-- A page as a JSON object. -/
def toJson (page : ListPage) : Json := Json.ofMembers [
  ("data", .array (page.data.map .object)),
  ("meta", .ofMembers [
    ("count", .integer page.count.toInt), ("total", .integer page.total.toInt)]),
  ("links", page.links.toJson)]

/-- The fields of the counts of a page in declaration order. -/
def countFields : List Shape.Field := [
  .of "count" Shape.int64 .required,
  .of "total" Shape.int64 .required]

/-- The decoder of the counts of a page. -/
def countShape : Decoder (Int64 × Int64) := fun d ↦ do
  let found ← Shape.record countFields d
  return (← Shape.required "count" Shape.int64 found, ← Shape.required "total" Shape.int64 found)

/-- The decoder of the objects of a page, which stand three lists deep in its text. -/
def dataShape : Decoder (List JsonObject) :=
  Shape.list (Shape.entries (Shape.anyValue (Shape.maxDepth - 3)))

/-- The fields of a page in declaration order. -/
def fields : List Shape.Field := [
  .of "data" dataShape .required,
  .of "meta" countShape .required,
  .of "links" Query.Links.shape .required]

/-- The decoder of a page. -/
def shape : Decoder ListPage := fun d ↦ do
  let found ← Shape.record fields d
  let (count, total) ← Shape.required "meta" countShape found
  return {
    data := ← Shape.required "data" dataShape found
    count, total
    links := ← Shape.required "links" Query.Links.shape found }

end ListPage

end PlaybookRuns
