import TaskWatch.Json.Record

/-!
# Links between resources

A resource names the others it belongs with by links, each with a relation.  Of several links with
one relation the first counts.
-/

namespace TaskWatch.Resource

open TaskWatch.Json

structure Link where
  /-- What the resource linked to is for this one. -/
  rel : String
  href : String
  mediaType : Option String
  title : Option String
deriving DecidableEq, Repr

def relSelf : String := "self"

/-- The relation of a task to the tasks of the resource it works on. -/
def relParent : String := "parent"

def findLink (links : List Link) (rel : String) : Option Link := links.find? (·.rel == rel)

def Link.record : Record Link where
  name := "Link"
  types := [String, String, Option String, Option String]
  fields :=
    .cons (.required "rel" .text) <|
    .cons (.required "href" .text) <|
    .cons (.optional "type" .text) <|
    .cons (.optional "title" .text) .nil
  build := fun (rel, href, mediaType, title, _) => ⟨rel, href, mediaType, title⟩
  parts := fun l => (l.rel, l.href, l.mediaType, l.title, ())

def Link.codec : Codec Link := .record Link.record

end TaskWatch.Resource
