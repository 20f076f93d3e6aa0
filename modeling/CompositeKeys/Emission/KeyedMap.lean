import CompositeKeys.Emission.ClassOutline

/-! Maps. A hashed map keeps the frozen key sequence beside each value so that it can be iterated; a
composite map lets go of a composed key when its entry goes; a map of one key is a built-in map
under another interface. Weak maps cannot be iterated. -/

namespace CompositeKeys.Emission

def KeyPlan.ofMap (bindings : Bindings) (keying : Keying) : KeyPlan :=
  { keying
    all := bindings.arguments
    weak := bindings.partition.weakMapKeys
    strong := bindings.partition.strongMapKeys }

def keyedMap (bindings : Bindings) (keying : Keying) (weak : Bool) : ClassOutline :=
  let plan := KeyPlan.ofMap bindings keying
  let hasherField := "#hasher"
  let arguments := Fragment.names bindings.arguments
  let guarded := bindings.hasChecks
  let strongOnly := fun members : List Member => if weak then [] else members
  { name := bindings.className
    fields := { name := "#root", initial := .builtin (if weak then "WeakMap" else "Map") } ::
      plan.fields hasherField
    members :=
      [.method "constructor" ["iterable"]
        [.opening ["if (iterable)"],
          .opening ["for (const [", arguments, ", value] of iterable)"],
          .line ["this.set(", arguments, ", value);"], .close, .close]] ++
      strongOnly
        [.accessor "size" [.line ["return this.#root.size;"]],
          .method "clear" [] [.line ["this.#root.clear();"]]] ++
      [.method "delete" [arguments]
        (guard guarded "isValidKey" [arguments] "return false;" ++
          plan.lookup hasherField "return false;" ++
          (if keying = .composite then
            .line ["const __deleted__ = this.#root.delete(", plan.key, ");"] :: plan.forget ++
              [.line ["return __deleted__;"]]
          else [.line ["return this.#root.delete(", plan.key, ");"]]))] ++
      strongOnly
        [.generator "entries" []
          (if keying = .hashed then
            [.line ["for (const __entry__ of this.#root.values())"],
              .line ["  yield [...__entry__.keys, __entry__.value];"]]
          else
            [.line ["for (const [__key__, __value__] of this.#root)"],
              .line ["  yield [__key__, __value__];"]]),
          .method "forEach" ["__callback__", "__thisArg__"]
            [.line ["for (const __entry__ of this.entries())"],
              .line ["  __callback__.apply(__thisArg__, [...__entry__, this]);"]]] ++
      [.method "get" [arguments]
        (guard guarded "isValidKey" [arguments] "return undefined;" ++
          plan.lookup hasherField "return undefined;" ++
          (if keying = .hashed then
            [.line ["const __entry__ = this.#root.get(__hash__);"],
              .line ["return __entry__ ? __entry__.value : undefined;"]]
          else [.line ["return this.#root.get(", plan.key, ");"]])),
        .method "getDefault" [arguments, "__defaultGetter__"]
          [.line ["if (this.has(", arguments, ")) return this.get(", arguments, ");"],
            .line ["const __value__ = __defaultGetter__();"],
            .line ["this.set(", arguments, ", __value__);"],
            .line ["return __value__;"]],
        .method "has" [arguments]
          (guard guarded "isValidKey" [arguments] "return false;" ++
            plan.lookup hasherField "return false;" ++
            [.line ["return this.#root.has(", plan.key, ");"]]),
        .method "isValidKey" [arguments] (testing (checkText bindings.checks)),
        .method "isValidValue" ["value"] (testing (checkText bindings.valueChecks))] ++
      strongOnly
        [.generator "keys" []
          (if keying = .hashed then
            [.line ["for (const __entry__ of this.#root.values())"],
              .line ["  yield [...__entry__.keys];"]]
          else
            [.line ["for (const __key__ of this.#root.keys())"], .line ["  yield [__key__];"]])] ++
      [.method "set" [arguments, "value"]
        (refuse guarded "isValidKey" [arguments] invalidKey ++
          refuse (!bindings.valueChecks.isEmpty) "isValidValue" ["value"] invalidValue ++
          plan.require hasherField ++
          (if keying = .hashed then
            [.line ["this.#root.set(__hash__, \x7b keys: Object.freeze([", arguments,
              "]), value \x7d);"]]
          else [.line ["this.#root.set(", plan.key, ", value);"]]) ++
          [.line ["return this;"]])] ++
      strongOnly
        [.generator "values" []
          (if keying = .hashed then
            [.line ["for (const __entry__ of this.#root.values())"],
              .line ["  yield __entry__.value;"]]
          else [.line ["yield* this.#root.values();"]]),
          .iterator [.line ["return this.entries();"]]] ++
      [.toStringTag bindings.className] }

end CompositeKeys.Emission
