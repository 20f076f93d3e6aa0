import CompositeKeys.Emission.Documentation

/-! The entries that documentation begins with: one table for maps, sets and maps of sets, and one
for paired collections of either kind. -/

namespace CompositeKeys.Emission

/-- The tables of entries. A paired collection over a base without further keys takes the single
table, any other one the double table. -/
inductive Flavor where
  | collection
  | pairedSingle
  | pairedDouble
  deriving DecidableEq, Repr, Inhabited

namespace Flavor

def name : Flavor → String
  | .collection => "Collection"
  | .pairedSingle => "PairedSingle"
  | .pairedDouble => "PairedDouble"

def all : List Flavor := [.collection, .pairedSingle, .pairedDouble]

def ofName? (text : String) : Option Flavor :=
  all.find? fun flavor => flavor.name = text

end Flavor

namespace Entry

def nothing (description : String) (listed : ListedArguments) : Entry :=
  { description, listed, returnsNothing := true }

def returning (description : String) (listed : ListedArguments) (type result : String) : Entry :=
  { description, listed, resultType := some type, resultDescription := some result }

def yielding (description : String) (type result : String) : Entry :=
  { description, isGenerator := true, resultType := some type, resultDescription := some result }

def property (description : String) (type result : String) : Entry :=
  { description, isProperty := true, resultType := some type, resultDescription := some result }

def before (entry : Entry) (type name description : String) : Entry :=
  { entry with rowsBefore := entry.rowsBefore ++ [{ typeName := type, name, description }] }

def after (entry : Entry) (type name description : String) : Entry :=
  { entry with rowsAfter := entry.rowsAfter ++ [{ typeName := type, name, description }] }

def withCallbackBefore (entry : Entry) : Entry :=
  (entry.before "function" "__callback__" "A function to invoke for each iteration.").before
    "object" "[__thisArg__]" "Value to use as this when executing callback."

def withCallbackAfter (entry : Entry) : Entry :=
  (entry.after "function" "__callback__" "A function to invoke for each iteration.").after
    "object" "[__thisArg__]" "Value to use as this when executing callback."

def withValue (entry : Entry) (type : String) : Entry :=
  entry.before type "value" "The value."

def withBoundValues (entry : Entry) : Entry :=
  (entry.before "object" "value_1" "The first value.").before "object" "value_2"
    "The second value."

def toStringTag : Entry := property "The class name." "string" "__className__"

/-- What `values` yields in a collection of key sets. -/
def keySets : Entry := yielding "Yield the key sets of the collection." "*[]" "The key set."

end Entry

open Entry in
def collectionEntries : List (String × Entry) :=
  [("constructor", (nothing "Create a new __className__." .none).before "Iterable<*[]>"
      "[iterable]" "Initial entries."),
    ("size", property "The number of elements in this collection." "number" "The element count."),
    ("mapSize", property "The number of sets in this collection." "number" "The set count."),
    ("clear", nothing "Clear the collection." .none),
    ("delete", returning "Delete an element from the collection by its key sequence." .exceptValue
      "boolean" "True if we found the value and deleted it."),
    ("deleteSets", returning "Delete all sets from the collection by the given map sequence."
      .mapOnly "boolean" "True if we found the sets and deleted them."),
    ("entries", yielding "Yield the key-value tuples of the collection." "*[]"
      "The keys and values."),
    ("forEach", (nothing "Iterate over the keys and values." .none).withCallbackBefore),
    ("forEachSet",
      (nothing "Iterate over the set keys of one map key sequence." .mapOnly).withCallbackAfter),
    ("get", returning "Get a value for a key set." .exceptValue "__valueType__ | undefined"
      "__valueDesc__ Undefined if it isn't in the collection."),
    ("getDefault",
      (returning "Provide a default value for .get() if there isn't a value." .exceptValue
        "__valueType__" "__valueDesc__").after "function" "__defaultGetter__"
        "A function to provide a default."),
    ("getSizeOfSet", returning "Report the number of sets for a map key sequence." .mapOnly
      "number" "The set size."),
    ("has", returning "Report if the collection has a value for a key set." .exceptValue "boolean"
      "True if the key set refers to a value in the collection."),
    ("hasSets", returning "Report if the collection has any sets for a map key sequence." .mapOnly
      "boolean" "True if the map key sequence refers to a set."),
    ("isValidKey", returning "Determine if a set of keys is valid." .exceptValue "boolean"
      "True if the validation passes, false if it doesn't."),
    ("isValidValue", returning "Determine if a value is valid." .value "boolean"
      "True if the value is valid."),
    ("keys", yielding "Yield the key sets of the collection." "*[]" "The key set."),
    ("set", returning "Set a value for a key set." .all "__className__" "This collection."),
    ("add", returning "Add a key set to this collection." .exceptValue "__className__"
      "This collection."),
    ("addSets", (returning "Add several sets to a map in this collection." .mapOnly "__className__"
      "This collection.").after "Iterable<*[]>" "__sets__" "The sets to add."),
    ("values", yielding "Yield the values of the collection." "__valueType__" "The value."),
    ("valuesSet", { yielding "Yield the sets of the collection for a map key sequence." "*[]"
      "The map and set keys." with listed := .mapOnly }),
    ("iterator", yielding "Iterate over the collection." "*[]" "The next entry."),
    ("toStringTag", toStringTag)]

open Entry in
def pairedSingleEntries : List (String × Entry) :=
  [("constructor", nothing "Create a new __className__." .none),
    ("bindOneToOne", (nothing "Bind two values together." .none).withBoundValues),
    ("delete", (returning "Unbind a value from its partner." .none "boolean"
      "True if the value was bound and is now unbound.").withValue "object"),
    ("get", (returning "Get the partner of a value." .none "object | undefined"
      "The partner value, or undefined.").withValue "object"),
    ("has", (returning "Report if a value has a partner." .none "boolean"
      "True if the value is bound.").withValue "object"),
    ("isValidValue", (returning "Determine if a value is valid." .none "boolean"
      "True if the value is an object.").withValue "*"),
    ("toStringTag", toStringTag)]

open Entry in
def pairedDoubleEntries : List (String × Entry) :=
  [("constructor", nothing "Create a new __className__." .none),
    ("bindOneToOne", (nothing "Bind two sets of keys and values together." .none).withBoundValues),
    ("delete", (returning "Delete a target value." .exceptValue "boolean"
      "True if the target value was deleted.").withValue "object"),
    ("get", (returning "Get a target value." .exceptValue "object | undefined"
      "The target value, or undefined.").withValue "object"),
    ("has", (returning "Determine if a target value exists." .exceptValue "boolean"
      "True if the target value exists.").withValue "object"),
    ("hasIdentity", ((returning "Determine if a target value is an identity in this map."
      .exceptValue "boolean" "True if the target value exists.").withValue "object").after
      "boolean" "allowNotDefined" "Treat an unbound value as an identity."),
    ("isValidKey", returning "Determine if a set of keys is valid." .exceptValue "boolean"
      "True if the validation passes, false if it doesn't."),
    ("isValidValue", (returning "Determine if a value is valid." .none "boolean"
      "True if the value is an object.").withValue "*"),
    ("toStringTag", toStringTag)]

def Flavor.entries : Flavor → List (String × Entry)
  | .collection => collectionEntries
  | .pairedSingle => pairedSingleEntries
  | .pairedDouble => pairedDoubleEntries

/-- The documentation of a class before anything has been declared. -/
def Documentation.ofFlavor (flavor : Flavor) (className : String) (checkedTypes : Bool) :
    Except EmissionError Documentation :=
  flavor.entries.foldlM (fun documentation (name, entry) => documentation.add name entry)
    { className, checkedTypes }

/-- The entry of a binding of two key sequences: the keys of either side under names of that side,
each followed by the value of the side. -/
def Entry.binding (sources : List Dimension) (checkedTypes : Bool) : Entry :=
  let side := fun mark : String =>
    sources.map (fun source =>
      { typeName := if checkedTypes then source.checkedType else source.documentType
        name := source.name ++ mark
        description := source.description }) ++
    [({ typeName := "object", name := "value" ++ mark, description := "The value." } :
      ParameterRow)]
  { description := "Bind two sets of keys and values together."
    returnsNothing := true
    rowsBefore := side "_1" ++ side "_2" }

end CompositeKeys.Emission
