import CompositeKeys.Emission.ClassOutline

/-! Maps of sets. Every sequence of mapping keys leads to one record, which holds the sets stored
under it. One plan makes storage keys of mapping keys, another one of set elements. Strong maps can
be iterated and count their elements; weak ones cannot. -/

namespace CompositeKeys.Emission

def KeyPlan.ofMappingKeys (bindings : Bindings) (keying : Keying) : KeyPlan :=
  { keying
    all := bindings.mapKeys
    weak := bindings.partition.weakMapKeys
    strong := bindings.partition.strongMapKeys }

def KeyPlan.ofElements (bindings : Bindings) (keying : Keying) : KeyPlan :=
  { keying, all := bindings.setElements, weak := [], strong := bindings.setElements }

/-- Adds to the running count if the collection keeps one. -/
def countAdded (weak : Bool) (addition : Phrase) : List Stroke :=
  if weak then [.line (addition.between "" ";")]
  else [.line (addition.between "if (" ")"), .line ["  this.#sizeOfAll++;"]]

def mapOfSets (bindings : Bindings) (outerKeying : Keying) (weak : Bool) (innerKeying : Keying) :
    ClassOutline :=
  let outer := KeyPlan.ofMappingKeys bindings outerKeying
  let inner := KeyPlan.ofElements bindings innerKeying
  let mapHasher := "#mapHasher"
  let setHasher := "#setHasher"
  let mapKeys := Fragment.names bindings.mapKeys
  let elements := Fragment.names bindings.setElements
  let arguments := Fragment.names bindings.arguments
  let innerStorage := if innerKeying = .hashed then "new Map" else "new Set"
  let strongOnly := fun members : List Member => if weak then [] else members
  let strongLines := fun strokes : List Stroke => if weak then [] else strokes
  let guardKey := guard bindings.hasChecks "#isValidKey" [arguments]
  let guardMapKey := guard bindings.hasMapChecks "#isValidMapKey" [mapKeys]
  let findInner : Stroke := .line ["const __inner__ = this.#getInner(", mapKeys, ");"]
  let requireInner : Stroke := .line ["const __inner__ = this.#requireInner(", mapKeys, ");"]
  { name := bindings.className
    fields := { name := "#outerMap", initial := .builtin (if weak then "WeakMap" else "Map") } ::
      outer.fields mapHasher ++ inner.fields setHasher ++
      (if weak then [] else [{ name := "#sizeOfAll", initial := .count }])
    members :=
      [.method "constructor" ["iterable"]
        [.opening ["if (iterable)"], .line ["for (const __set__ of iterable)"],
          .line ["  this.add(...__set__);"], .close]] ++
      strongOnly
        [.accessor "size" [.line ["return this.#sizeOfAll;"]],
          .accessor "mapSize" [.line ["return this.#outerMap.size;"]]] ++
      [.method "getSizeOfSet" [mapKeys]
        (guardMapKey "return 0;" ++
          [findInner, .line ["return __inner__ ? __inner__.set.size : 0;"]]),
        .method "add" [arguments]
          (refuse bindings.hasChecks "#isValidKey" [arguments] invalidKey ++
            requireInner :: countAdded weak ["this.#innerAdd(__inner__, ", elements, ")"] ++
            [.line ["return this;"]]),
        .method "addSets" [mapKeys, "__sets__"]
          (refuse bindings.hasMapChecks "#isValidMapKey" [mapKeys] invalidKey ++
            [.line ["const __array__ = Array.from(__sets__);"],
              .opening ["for (const __set__ of __array__)"],
              .line ["if (__set__.length !== ", .own s!"{bindings.setElements.length}", ")"],
              .line ["  throw new Error(\"Set length mismatch!\");"]] ++
            refuse bindings.hasSetChecks "#isValidSetKey" ["...__set__"] invalidKey ++
            [.close, .line ["if (__array__.length === 0)"], .line ["  return this;"], requireInner,
              .opening ["for (const __set__ of __array__)"]] ++
            countAdded weak ["this.#innerAdd(__inner__, ...__set__)"] ++
            [.close, .line ["return this;"]])] ++
      strongOnly
        [.method "clear" []
          [.line ["this.#outerMap.clear();"], .line ["this.#sizeOfAll = 0;"]]] ++
      [.method "delete" [arguments]
        (guardKey "return false;" ++
          [findInner,
            .line ["if (!__inner__ || !this.#innerDelete(__inner__, ", elements, "))"],
            .line ["  return false;"]] ++
          strongLines [.line ["this.#sizeOfAll--;"]] ++
          [.line ["if (__inner__.set.size === 0)"],
            .line ["  this.#deleteInner(", mapKeys, ");"], .line ["return true;"]]),
        .method "deleteSets" [mapKeys]
          (guardMapKey "return false;" ++
            [findInner, .line ["if (!__inner__)"], .line ["  return false;"]] ++
            strongLines [.line ["this.#sizeOfAll -= __inner__.set.size;"]] ++
            [.line ["return this.#deleteInner(", mapKeys, ");"]])] ++
      strongOnly
        [.method "forEach" ["__callback__", "__thisArg__"]
          [.line ["for (const __entry__ of this.values())"],
            .line ["  __callback__.apply(__thisArg__, [...__entry__, this]);"]]] ++
      [.method "forEachSet" [mapKeys, "__callback__", "__thisArg__"]
        (guardMapKey "return;" ++
          [findInner, .line ["if (!__inner__)"], .line ["  return;"],
            .line ["for (const __set__ of this.#innerValues(__inner__))"],
            .line ["  __callback__.apply(__thisArg__, [", mapKeys, ", ...__set__, this]);"]]),
        .method "has" [arguments]
          (guardKey "return false;" ++
            [findInner,
              .line ["return __inner__ ? this.#innerHas(__inner__, ", elements, ") : false;"]]),
        .method "hasSets" [mapKeys]
          (guardMapKey "return false;" ++
            [.line ["return Boolean(this.#getInner(", mapKeys, "));"]]),
        .method "isValidKey" [arguments]
          [.line ["return this.#isValidKey(", arguments, ");"]]] ++
      strongOnly
        [.generator "values" []
          [.opening ["for (const __inner__ of this.#outerMap.values())"],
            .line ["for (const __set__ of this.#innerValues(__inner__))"],
            .line ["  yield [...__inner__.mapKeys, ...__set__];"], .close]] ++
      [.generator "valuesSet" [mapKeys]
        (guardMapKey "return;" ++
          [findInner, .line ["if (!__inner__)"], .line ["  return;"],
            .line ["for (const __set__ of this.#innerValues(__inner__))"],
            .line ["  yield [", mapKeys, ", ...__set__];"]])] ++
      strongOnly [.iterator [.line ["return this.values();"]]] ++
      [.toStringTag bindings.className,
        .hidden "#getInner" [mapKeys]
          (outer.lookup mapHasher "return undefined;" ++
            [.line ["return this.#outerMap.get(", outer.key, ");"]]),
        .hidden "#requireInner" [mapKeys]
          (outer.require mapHasher ++
            [.line ["let __inner__ = this.#outerMap.get(", outer.key, ");"],
              .opening ["if (!__inner__)"],
              (if weak then .line ["__inner__ = \x7b set: ", .own innerStorage, " \x7d;"]
              else .line ["__inner__ = \x7b mapKeys: Object.freeze([", mapKeys, "]), set: ",
                .own innerStorage, " \x7d;"]),
              .line ["this.#outerMap.set(", outer.key, ", __inner__);"], .close,
              .line ["return __inner__;"]]),
        .hidden "#deleteInner" [mapKeys]
          (outer.lookup mapHasher "return false;" ++
            .line ["const __deleted__ = this.#outerMap.delete(", outer.key, ");"] ::
            outer.forget ++ [.line ["return __deleted__;"]]),
        .hidden "#innerAdd" ["__inner__", elements]
          (inner.require setHasher ++
            [.line ["if (__inner__.set.has(", inner.key, "))"], .line ["  return false;"],
              (if innerKeying = .hashed then
                .line ["__inner__.set.set(__hash__, Object.freeze([", elements, "]));"]
              else .line ["__inner__.set.add(", inner.key, ");"]),
              .line ["return true;"]]),
        .hidden "#innerHas" ["__inner__", elements]
          (inner.lookup setHasher "return false;" ++
            [.line ["return __inner__.set.has(", inner.key, ");"]]),
        .hidden "#innerDelete" ["__inner__", elements]
          (inner.lookup setHasher "return false;" ++
            [.line ["return __inner__.set.delete(", inner.key, ");"]]),
        { head := { kind := .generator, name := "#innerValues", parameters := ["__inner__"] }
          body :=
            if innerKeying = .hashed then [.line ["yield* __inner__.set.values();"]]
            else [.line ["for (const __element__ of __inner__.set)"],
              .line ["  yield [__element__];"]] },
        .hidden "#isValidKey" [arguments]
          [.line ["return this.#isValidMapKey(", mapKeys, ") && this.#isValidSetKey(", elements,
            ");"]],
        .hidden "#isValidMapKey" [mapKeys] (testing (checkText bindings.mapChecks)),
        .hidden "#isValidSetKey" [elements] (testing (checkText bindings.setChecks))] }

end CompositeKeys.Emission
