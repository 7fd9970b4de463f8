/-!
# Reserved names

The names that generated identifiers must stay clear of: words of JavaScript, globals that generated
code relies on, properties of every object, and the members of the runtime's stage and sprite
classes.
-/

namespace ScratchExport.Name

/-- The reserved words of JavaScript. -/
def reservedWords : List String :=
  ["await", "break", "case", "catch", "class", "const", "continue", "debugger", "default", "delete",
    "do", "else", "enum", "export", "extends", "false", "finally", "for", "function", "if",
    "implements", "import", "in", "instanceof", "interface", "let", "new", "null", "package",
    "private", "protected", "public", "return", "static", "super", "switch", "this", "throw",
    "true", "try", "typeof", "var", "void", "while", "with", "yield"]

/-- Bare identifiers that are no reserved words and still have a fixed meaning. -/
def specialGlobals : List String :=
  ["arguments", "eval", "undefined", "NaN", "Infinity"]

/-- Names that a parameter or local variable cannot have. -/
def parameterSeed : List String :=
  reservedWords ++ specialGlobals

/-- Names that a class cannot have: what target and entry modules import or use. -/
def classSeed : List String :=
  parameterSeed ++
    ["Project", "Sprite", "StageBase", "Trigger", "Watcher", "Costume", "Color", "Sound", "Array",
      "Boolean", "Date", "Error", "Function", "JSON", "Map", "Math", "Number", "Object", "Promise",
      "RegExp", "Set", "String", "Symbol", "console", "document", "globalThis", "window", "stage",
      "sprites", "project"]

/-- Properties that every object has. -/
def variableSeed : List String :=
  ["__proto__", "__defineGetter__", "__defineSetter__", "__lookupGetter__", "__lookupSetter__",
    "constructor", "hasOwnProperty", "isPrototypeOf", "propertyIsEnumerable", "toLocaleString",
    "toString", "valueOf"]

/-- Members of both runtime classes. -/
def commonMembers : List String :=
  ["constructor", "stage", "sprites", "vars", "watchers", "costumes", "sounds", "triggers",
    "costume", "costumeNumber", "effects", "audioEffects", "mouse", "timer", "answer", "askAndWait",
    "keyPressed", "loudness", "wait", "warp", "broadcast", "broadcastAndWait", "random",
    "restartTimer", "clearPen", "getSound", "startSound", "playSoundUntilDone", "stopAllSounds",
    "stopAllOfMySounds", "toNumber", "toBoolean", "toString", "compare", "letterOf",
    "stringIncludes", "arrayIncludes", "indexInArray", "itemOf", "radToDeg", "degToRad",
    "radToScratch", "scratchToRad", "scratchToDeg", "degToScratch", "normalizeDeg",
    "fireBackdropChanged"]

/-- Members of the runtime's stage class. -/
def stageMembers : List String :=
  commonMembers ++ ["width", "height", "fence", "__counter"]

/-- Members of the runtime's sprite class. -/
def spriteMembers : List String :=
  commonMembers ++
    ["x", "y", "direction", "size", "visible", "draggable", "rotationStyle", "penDown", "penColor",
      "penSize", "parent", "clones", "andClones", "createClone", "deleteThisClone", "move", "goto",
      "glide", "say", "sayAndWait", "think", "thinkAndWait", "moveAhead", "moveBehind", "touching",
      "colorTouching", "ifOnEdgeBounce", "stamp", "nearestEdge", "bounds"]

end ScratchExport.Name
