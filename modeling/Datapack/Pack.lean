import Datapack.Advancement

/-!
# Written packs

A pack consists of functions, tags and advancements. It is the outcome of a list of files
written one after the other: a file written again replaces the earlier one and keeps its place.
-/
namespace Datapack

structure TagKey where
  category : String
  ns : String
  name : String
  deriving DecidableEq

inductive PackFile where
  | function (name : String) (commands : List String)
  | tag (key : TagKey) (members : List String)
  | advancement (content : Advancement)

structure Pack where
  functions : Table String (List String) := ∅
  tags : Table TagKey (List String) := ∅
  advancements : Table String Advancement := ∅

namespace Pack

def write (p : Pack) : PackFile → Pack
  | .function name commands => { p with functions := p.functions.insert name commands }
  | .tag key members => { p with tags := p.tags.insert key members }
  | .advancement content => { p with advancements := p.advancements.insert content.name content }

/-- The pack that a list of files makes. -/
def ofFiles (files : List PackFile) : Pack := files.foldl write {}

def function? (p : Pack) (name : String) : Option (List String) := p.functions.get? name

def tag? (p : Pack) (category ns name : String) : Option (List String) :=
  p.tags.get? ⟨category, ns, name⟩

end Pack

end Datapack
