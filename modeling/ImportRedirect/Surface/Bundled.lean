import ImportRedirect.Surface

/-!
The surface used when no snapshot is named: everything that the default replacement module exports.
-/

namespace ImportRedirect.Surface

def bundledModule : String := "es-toolkit/compat"

def bundledNames : List String :=
  ["castArray", "chunk", "compact", "concat", "countBy", "difference", "differenceBy",
   "differenceWith", "drop", "dropRight", "dropRightWhile", "dropWhile", "each", "eachRight",
   "every", "fill", "filter", "find", "findIndex", "findLast", "findLastIndex", "first",
   "flatMap", "flatMapDeep", "flatMapDepth", "flatten", "flattenDeep", "flattenDepth", "forEach",
   "forEachRight", "groupBy", "head", "includes", "indexOf", "initial", "intersection",
   "intersectionBy", "intersectionWith", "invokeMap", "join", "keyBy", "last", "lastIndexOf",
   "map", "nth", "orderBy", "partition", "pull", "pullAll", "pullAllBy", "pullAllWith", "pullAt",
   "reduce", "reduceRight", "reject", "remove", "reverse", "sample", "sampleSize", "shuffle",
   "size", "slice", "some", "sortBy", "tail", "take", "takeRight", "takeRightWhile", "takeWhile",
   "union", "unionBy", "unionWith", "uniq", "uniqBy", "uniqWith", "unzip", "unzipWith", "without",
   "xor", "xorBy", "xorWith", "zip", "zipObject", "zipObjectDeep", "zipWith", "after", "ary",
   "attempt", "before", "bind", "bindKey", "curry", "curryRight", "debounce", "defer", "delay",
   "flip", "flow", "flowRight", "identity", "memoize", "negate", "noop", "nthArg", "once",
   "overArgs", "partial", "partialRight", "rearg", "rest", "spread", "throttle", "unary", "wrap",
   "clone", "cloneDeep", "cloneDeepWith", "cloneWith", "conforms", "conformsTo", "eq", "gt",
   "gte", "isArguments", "isArray", "isArrayBuffer", "isArrayLike", "isArrayLikeObject",
   "isBoolean", "isBuffer", "isDate", "isElement", "isEmpty", "isEqual", "isEqualWith", "isError",
   "isFinite", "isFunction", "isInteger", "isLength", "isMap", "isMatch", "isMatchWith", "isNaN",
   "isNative", "isNil", "isNull", "isNumber", "isObject", "isObjectLike", "isPlainObject",
   "isRegExp", "isSafeInteger", "isSet", "isString", "isSymbol", "isTypedArray", "isUndefined",
   "isWeakMap", "isWeakSet", "lt", "lte", "toArray", "toFinite", "toInteger", "toLength",
   "toNumber", "toPlainObject", "toSafeInteger", "toString", "add", "ceil", "clamp", "divide",
   "floor", "inRange", "max", "maxBy", "mean", "meanBy", "min", "minBy", "multiply", "random",
   "range", "rangeRight", "round", "subtract", "sum", "sumBy", "assign", "assignIn",
   "assignInWith", "assignWith", "at", "create", "defaults", "defaultsDeep", "extend",
   "extendWith", "findKey", "findLastKey", "forIn", "forInRight", "forOwn", "forOwnRight",
   "fromPairs", "functions", "functionsIn", "get", "has", "hasIn", "invert", "invertBy", "invoke",
   "keys", "keysIn", "mapKeys", "mapValues", "merge", "mergeWith", "omit", "omitBy", "pick",
   "pickBy", "property", "propertyOf", "result", "set", "setWith", "toPairs", "toPairsIn",
   "transform", "unset", "update", "updateWith", "values", "valuesIn", "camelCase", "capitalize",
   "deburr", "endsWith", "escape", "escapeRegExp", "kebabCase", "lowerCase", "lowerFirst", "pad",
   "padEnd", "padStart", "parseInt", "repeat", "replace", "snakeCase", "split", "startCase",
   "startsWith", "template", "toLower", "toUpper", "trim", "trimEnd", "trimStart", "truncate",
   "unescape", "upperCase", "upperFirst", "words", "bindAll", "cond", "constant", "defaultTo",
   "iteratee", "matches", "matchesProperty", "method", "methodOf", "over", "overEvery",
   "overSome", "stubArray", "stubFalse", "stubObject", "stubString", "stubTrue", "times",
   "toPath", "uniqueId"]

def bundled (excludes : List String) : Surface := ofNames bundledNames excludes (some bundledModule)

end ImportRedirect.Surface
