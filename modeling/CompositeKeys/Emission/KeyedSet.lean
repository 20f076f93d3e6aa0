import CompositeKeys.Emission.ClassOutline

/-! Sets. A hashed set maps the hash of a key sequence to the frozen sequence so that it can be
iterated; the other sets hold their storage keys in a built-in set. -/

namespace CompositeKeys.Emission

def KeyPlan.ofSet (bindings : Bindings) (keying : Keying) : KeyPlan :=
  { keying
    all := bindings.arguments
    weak := bindings.partition.weakSetElements
    strong := bindings.partition.strongSetElements }

def keyedSet (bindings : Bindings) (keying : Keying) (weak : Bool) : ClassOutline :=
  let plan := KeyPlan.ofSet bindings keying
  let hasherField := "#hasher"
  let arguments := Fragment.names bindings.arguments
  let guarded := bindings.hasChecks
  let strongOnly := fun members : List Member => if weak then [] else members
  let storage :=
    if keying = .hashed then "Map" else if weak then "WeakSet" else "Set"
  { name := bindings.className
    fields := { name := "#root", initial := .builtin storage } :: plan.fields hasherField
    members :=
      [.method "constructor" ["iterable"]
        [.opening ["if (iterable)"], .line ["for (const __set__ of iterable)"],
          .line ["  this.add(...__set__);"], .close]] ++
      strongOnly [.accessor "size" [.line ["return this.#root.size;"]]] ++
      [.method "add" [arguments]
        (refuse guarded "isValidKey" [arguments] invalidKey ++
          plan.require hasherField ++
          (if keying = .hashed then
            [.line ["if (!this.#root.has(__hash__))"],
              .line ["  this.#root.set(__hash__, Object.freeze([", arguments, "]));"]]
          else [.line ["this.#root.add(", plan.key, ");"]]) ++
          [.line ["return this;"]])] ++
      strongOnly [.method "clear" [] [.line ["this.#root.clear();"]]] ++
      [.method "delete" [arguments]
        (guard guarded "isValidKey" [arguments] "return false;" ++
          plan.lookup hasherField "return false;" ++
          (if keying = .composite then
            .line ["const __deleted__ = this.#root.delete(", plan.key, ");"] :: plan.forget ++
              [.line ["return __deleted__;"]]
          else [.line ["return this.#root.delete(", plan.key, ");"]]))] ++
      strongOnly
        [.method "forEach" ["__callback__", "__thisArg__"]
          [.line ["for (const __set__ of this.values())"],
            .line ["  __callback__.apply(__thisArg__, [...__set__, this]);"]]] ++
      [.method "has" [arguments]
        (guard guarded "isValidKey" [arguments] "return false;" ++
          plan.lookup hasherField "return false;" ++
          [.line ["return this.#root.has(", plan.key, ");"]]),
        .method "isValidKey" [arguments] (testing (checkText bindings.checks))] ++
      strongOnly
        [.generator "values" []
          (if keying = .hashed then
            [.line ["for (const __set__ of this.#root.values())"], .line ["  yield [...__set__];"]]
          else [.line ["for (const __key__ of this.#root)"], .line ["  yield [__key__];"]]),
          .iterator [.line ["return this.values();"]]] ++
      [.toStringTag bindings.className] }

end CompositeKeys.Emission
