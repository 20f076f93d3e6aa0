import CompositeKeys.Emission.ClassOutline

/-! Paired collections bind values to each other through a frozen identity that both share. The
identity takes the place of the reserved key in a base map. Over a base without further keys the
base keeps the pair; otherwise it keeps one value for each sequence of the further keys. -/

namespace CompositeKeys.Emission

def alreadyBound : String := "value_1 and value_2 are already in different one-to-one mappings!"

/-- Throws unless both values can be bound. -/
def checkValues : List Stroke :=
  ["value_1", "value_2"].flatMap fun value =>
    refuse true "isValidValue" [.own value] (value ++ " is not a valid value!")

def lookupIdentity (missing : String) : List Stroke :=
  [.line ["const __key__ = this.#weakValueToInternalKey.get(value);"],
    .line ["if (!__key__) ", .own missing]]

def lookupPair (missing : String) : List Stroke :=
  lookupIdentity missing ++
    [.line ["const __pair__ = this.#baseMap.get(__key__);"],
      .line ["if (!__pair__) ", .own missing]]

def singleMembers : List Member :=
  [.method "bindOneToOne" ["value_1", "value_2"]
    (([.line ["const __key1__ = this.#weakValueToInternalKey.get(value_1);"],
      .line ["const __key2__ = this.#weakValueToInternalKey.get(value_2);"],
      .line ["if (__key1__ && __key1__ === __key2__)"],
      .line ["  return;"],
      .line ["if (__key1__ || __key2__)"],
      .line ["  throw new Error(\"", .own alreadyBound, "\");"]] : List Stroke) ++
      checkValues ++
      ([.line ["const __key__ = Object.freeze(\x7b\x7d);"],
        .line ["this.#weakValueToInternalKey.set(value_1, __key__);"],
        .line ["this.#weakValueToInternalKey.set(value_2, __key__);"],
        .line ["this.#baseMap.set(__key__, Object.freeze([value_1, value_2]));"]] : List Stroke)),
    .method "delete" ["value"]
      (lookupPair "return false;" ++
        ([.line ["this.#weakValueToInternalKey.delete(__pair__[0]);"],
          .line ["this.#weakValueToInternalKey.delete(__pair__[1]);"],
          .line ["return this.#baseMap.delete(__key__);"]] : List Stroke)),
    .method "get" ["value"]
      (lookupPair "return undefined;" ++
        [.line ["return __pair__[0] === value ? __pair__[1] : __pair__[0];"]]),
    .method "has" ["value"] [.line ["return this.#weakValueToInternalKey.has(value);"]]]

def doubleMembers (pairing : PairingBindings) : List Member :=
  let sources := Fragment.names pairing.sources
  let sources1 := Fragment.names (suffixed pairing.sources "_1")
  let sources2 := Fragment.names (suffixed pairing.sources "_2")
  let base := Fragment.names (pairing.baseArgumentsWith "")
  let base1 := Fragment.names (pairing.baseArgumentsWith "_1")
  let base2 := Fragment.names (pairing.baseArgumentsWith "_2")
  let guarded := !pairing.checks.isEmpty
  let guardSources := guard guarded "isValidKey" [sources]
  [.method "bindOneToOne" [sources1, "value_1", sources2, "value_2"]
    (refuse guarded "isValidKey" [sources1] "The first ordered key set is not valid!" ++
      refuse guarded "isValidKey" [sources2] "The second ordered key set is not valid!" ++
      checkValues ++
      ([.line ["const __key1__ = this.#weakValueToInternalKey.get(value_1);"],
        .line ["const __key2__ = this.#weakValueToInternalKey.get(value_2);"],
        .line ["if (__key1__ && __key2__ && __key1__ !== __key2__)"],
        .line ["  throw new Error(\"", .own alreadyBound, "\");"],
        .line ["const __key__ = __key1__ || __key2__ || Object.freeze(\x7b\x7d);"],
        .blank,
        .line ["const __hasKeySet1__ = this.#baseMap.has(", base1, ");"],
        .line ["const __hasKeySet2__ = this.#baseMap.has(", base2, ");"],
        .line ["if (__hasKeySet1__ && this.#baseMap.get(", base1, ") !== value_1)"],
        .line ["  throw new Error(\"value_1 mismatch!\");"],
        .line ["if (__hasKeySet2__ && this.#baseMap.get(", base2, ") !== value_2)"],
        .line ["  throw new Error(\"value_2 mismatch!\");"],
        .blank,
        .line ["this.#weakValueToInternalKey.set(value_1, __key__);"],
        .line ["this.#weakValueToInternalKey.set(value_2, __key__);"],
        .line ["if (!__hasKeySet1__)"],
        .line ["  this.#baseMap.set(", base1, ", value_1);"],
        .line ["if (!__hasKeySet2__)"],
        .line ["  this.#baseMap.set(", base2, ", value_2);"]] : List Stroke)),
    .method "delete" ["value", sources]
      (guardSources "return false;" ++ lookupIdentity "return false;" ++
        ([.line ["const __target__ = this.#baseMap.get(", base, ");"],
          .line ["if (!__target__)"],
          .line ["  return false;"],
          .line ["const __deleted__ = this.#baseMap.delete(", base, ");"],
          .line ["if (__deleted__)"],
          .line ["  this.#weakValueToInternalKey.delete(__target__);"],
          .line ["return __deleted__;"]] : List Stroke)),
    .method "get" ["value", sources]
      (guardSources "return undefined;" ++ lookupIdentity "return undefined;" ++
        [.line ["return this.#baseMap.get(", base, ");"]]),
    .method "has" ["value", sources]
      (guardSources "return false;" ++ lookupIdentity "return false;" ++
        [.line ["return this.#baseMap.has(", base, ");"]]),
    .method "hasIdentity" ["value", sources, "allowNotDefined"]
      (guardSources "return false;" ++ lookupIdentity "return Boolean(allowNotDefined);" ++
        [.line ["return this.#baseMap.get(", base, ") === value;"]]),
    .method "isValidKey" [sources] (testing (checkText pairing.checks))]

def pairedMap (className : String) (pairing : PairingBindings) : ClassOutline :=
  { name := className
    fields :=
      [{ name := "#baseMap"
         initial :=
          match pairing.baseSource with
          | .builtin => .builtin "WeakMap"
          | .inline | .imported _ => .base pairing.baseClassName },
        { name := "#weakValueToInternalKey", initial := .builtin "WeakMap" }]
    members :=
      (if pairing.isSingle then singleMembers else doubleMembers pairing) ++
      [.method "isValidValue" ["value"] [.line ["return Object(value) === value;"]],
        .toStringTag className] }

end CompositeKeys.Emission
