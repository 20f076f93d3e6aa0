import CompositeKeys.Emission.KeyPlan
import CompositeKeys.Files.Path

/-! The helper modules that generated modules import: the hasher gives every tuple of values a
text, the composer gives it an object that lives as long as its weakly held values. The composer
imports the hasher. -/

namespace CompositeKeys.Generation
open Emission Files

/-- A text of whole lines. -/
def wholeLines (lines : List String) : String := String.join (lines.map (· ++ "\n"))

/-- The hasher module. -/
def hasherText : String := wholeLines [
  "/**",
  " * @file",
  " * Stable string hashes for ordered tuples of arbitrary values.",
  " *",
  " * Every distinct value receives a numeric id the first time it is hashed.",
  " * Objects are tracked weakly, primitives strongly.",
  " */",
  "",
  "export default class KeyHasher \x7b",
  "  #weakValueToId = new WeakMap;",
  "  #strongValueToId = new Map;",
  "  #nextId = 1;",
  "",
  "  /**",
  "   * Get the hash of the arguments, assigning ids to values not seen before.",
  "   *",
  "   * @param \x7b...*\x7d args The ordered values.",
  "   * @returns \x7bstring\x7d The hash.",
  "   */",
  "  getHash(...args) \x7b",
  "    return args.map(arg => this.#requireId(arg)).join(\",\");",
  "  \x7d",
  "",
  "  /**",
  "   * Get the hash of the arguments if every value was hashed before.",
  "   *",
  "   * @param \x7b...*\x7d args The ordered values.",
  "   * @returns \x7bstring\x7d The hash, or the empty string if any value is unknown.",
  "   */",
  "  getHashIfExists(...args) \x7b",
  "    const ids = [];",
  "    for (const arg of args) \x7b",
  "      const id = this.#getId(arg);",
  "      if (!id)",
  "        return \"\";",
  "      ids.push(id);",
  "    \x7d",
  "    return ids.join(\",\");",
  "  \x7d",
  "",
  "  #getId(value) \x7b",
  "    if (Object(value) === value)",
  "      return this.#weakValueToId.get(value);",
  "    return this.#strongValueToId.get(value);",
  "  \x7d",
  "",
  "  #requireId(value) \x7b",
  "    let id = this.#getId(value);",
  "    if (id)",
  "      return id;",
  "",
  "    id = this.#nextId++;",
  "    if (Object(value) === value)",
  "      this.#weakValueToId.set(value, id);",
  "    else",
  "      this.#strongValueToId.set(value, id);",
  "    return id;",
  "  \x7d",
  "\x7d",
  "",
  "Object.freeze(KeyHasher);",
  "Object.freeze(KeyHasher.prototype);"]

/-- The composer module, which imports the hasher. -/
def composerText : String := wholeLines [
  "/**",
  " * @file",
  " * Composite keys over weakly and strongly held arguments.",
  " *",
  " * One frozen key object exists per distinct argument tuple. The key is",
  " * reachable through a chain of weak maps, one link per weak argument, so it",
  " * stays alive only while every weak argument does.",
  " */",
  "",
  "import KeyHasher from \"./Hasher.mjs\";",
  "",
  "export default class WeakKeyComposer \x7b",
  "  #weakArgNames;",
  "  #strongArgNames;",
  "  #root = new WeakMap;",
  "  #hasher = new KeyHasher;",
  "",
  "  /**",
  "   * @param \x7bstring[]\x7d weakArgNames   Names of the weakly held arguments.",
  "   * @param \x7bstring[]\x7d strongArgNames Names of the strongly held arguments.",
  "   */",
  "  constructor(weakArgNames, strongArgNames = []) \x7b",
  "    if (weakArgNames.length === 0)",
  "      throw new Error(\"There must be at least one weak argument!\");",
  "    this.#weakArgNames = Object.freeze([...weakArgNames]);",
  "    this.#strongArgNames = Object.freeze([...strongArgNames]);",
  "  \x7d",
  "",
  "  /**",
  "   * Get the key for the arguments, creating it if necessary.",
  "   *",
  "   * @param \x7bobject[]\x7d weakArguments   The weakly held arguments.",
  "   * @param \x7b*[]\x7d      strongArguments The strongly held arguments.",
  "   * @returns \x7bobject\x7d The frozen key.",
  "   */",
  "  getKey(weakArguments, strongArguments) \x7b",
  "    if (!this.isValidForKey(weakArguments, strongArguments))",
  "      throw new Error(\"Argument lists do not form a valid key!\");",
  "",
  "    let node = this.#root;",
  "    let leaf = null;",
  "    for (const arg of weakArguments) \x7b",
  "      leaf = node.get(arg);",
  "      if (!leaf) \x7b",
  "        leaf = \x7b children: new WeakMap, keys: new Map \x7d;",
  "        node.set(arg, leaf);",
  "      \x7d",
  "      node = leaf.children;",
  "    \x7d",
  "",
  "    const hash = this.#hasher.getHash(...strongArguments);",
  "    let key = leaf.keys.get(hash);",
  "    if (!key) \x7b",
  "      key = Object.freeze(\x7b\x7d);",
  "      leaf.keys.set(hash, key);",
  "    \x7d",
  "    return key;",
  "  \x7d",
  "",
  "  /**",
  "   * Get the key for the arguments if it exists.",
  "   *",
  "   * @param \x7bobject[]\x7d weakArguments   The weakly held arguments.",
  "   * @param \x7b*[]\x7d      strongArguments The strongly held arguments.",
  "   * @returns \x7bobject | undefined\x7d The frozen key, if it exists.",
  "   */",
  "  getKeyIfExists(weakArguments, strongArguments) \x7b",
  "    const found = this.#find(weakArguments, strongArguments);",
  "    return found ? found.leaf.keys.get(found.hash) : undefined;",
  "  \x7d",
  "",
  "  /**",
  "   * Whether a key exists for the arguments.",
  "   *",
  "   * @param \x7bobject[]\x7d weakArguments   The weakly held arguments.",
  "   * @param \x7b*[]\x7d      strongArguments The strongly held arguments.",
  "   * @returns \x7bboolean\x7d True if the key exists.",
  "   */",
  "  hasKey(weakArguments, strongArguments) \x7b",
  "    return Boolean(this.getKeyIfExists(weakArguments, strongArguments));",
  "  \x7d",
  "",
  "  /**",
  "   * Delete the key for the arguments.",
  "   *",
  "   * @param \x7bobject[]\x7d weakArguments   The weakly held arguments.",
  "   * @param \x7b*[]\x7d      strongArguments The strongly held arguments.",
  "   * @returns \x7bboolean\x7d True if a key was deleted.",
  "   */",
  "  deleteKey(weakArguments, strongArguments) \x7b",
  "    const found = this.#find(weakArguments, strongArguments);",
  "    return found ? found.leaf.keys.delete(found.hash) : false;",
  "  \x7d",
  "",
  "  /**",
  "   * Whether the arguments can form a key.",
  "   *",
  "   * @param \x7b*[]\x7d weakArguments   The weakly held arguments.",
  "   * @param \x7b*[]\x7d strongArguments The strongly held arguments.",
  "   * @returns \x7bboolean\x7d True if the argument lists are valid.",
  "   */",
  "  isValidForKey(weakArguments, strongArguments) \x7b",
  "    if (weakArguments.length !== this.#weakArgNames.length)",
  "      return false;",
  "    if (strongArguments.length !== this.#strongArgNames.length)",
  "      return false;",
  "    return weakArguments.every(arg => Object(arg) === arg);",
  "  \x7d",
  "",
  "  #find(weakArguments, strongArguments) \x7b",
  "    if (!this.isValidForKey(weakArguments, strongArguments))",
  "      return null;",
  "",
  "    let node = this.#root;",
  "    let leaf = null;",
  "    for (const arg of weakArguments) \x7b",
  "      leaf = node.get(arg);",
  "      if (!leaf)",
  "        return null;",
  "      node = leaf.children;",
  "    \x7d",
  "",
  "    let hash = \"\";",
  "    if (strongArguments.length > 0) \x7b",
  "      hash = this.#hasher.getHashIfExists(...strongArguments);",
  "      if (!hash)",
  "        return null;",
  "    \x7d",
  "    return leaf.keys.has(hash) ? \x7b leaf, hash \x7d : null;",
  "  \x7d",
  "\x7d",
  "",
  "Object.freeze(WeakKeyComposer);",
  "Object.freeze(WeakKeyComposer.prototype);"]

/-- A module that is copied beside the generated ones. -/
structure HelperFile where
  name : String
  text : String
  deriving DecidableEq, Repr

/-- The helper modules that a use of helpers asks for. -/
def helperFiles (use : HelperUse) : List HelperFile :=
  (if use.hasher || use.composer then [{ name := "Hasher.mjs", text := hasherText }] else [])
    ++ (if use.composer then [{ name := "Composite.mjs", text := composerText }] else [])

/-- The directory of the helper modules, below the root of a run. -/
def helperDirectoryName : String := "keys"

/-- The text before the name of a helper module in the imports of a module: the way from its
directory to the helper directory. -/
def importPrefix (output helperDirectory : FilePath) : String :=
  let base := output.parent?.getD ⟨""⟩
  let steps := ((helperDirectory.relativeTo? base).getD helperDirectory.components).filterMap fun
    | .up => some ".."
    | .name text => some text
    | .root | .here => none
  match steps with
  | [] => "."
  | ".." :: _ => "/".intercalate steps
  | _ => "./" ++ "/".intercalate steps

end CompositeKeys.Generation
