import ApiDocs.ClassName

/-!
# Well-known classes

The classes of the Java platform that sources refer to most often.  They are known without their sources.
-/

namespace ApiDocs.ClassName

/-- The outermost classes, package by package. -/
def wellKnownByPackage : List (String × List String) :=
  [("java.lang",
     ["AutoCloseable", "Boolean", "Byte", "CharSequence", "Character", "Class",
      "ClassCastException", "Cloneable", "Comparable", "Deprecated", "Double", "Enum", "Error",
      "Exception", "Float", "FunctionalInterface", "IllegalArgumentException",
      "IllegalStateException", "IndexOutOfBoundsException", "Integer", "InterruptedException",
      "Iterable", "Long", "Math", "NullPointerException", "Number", "Object", "Override",
      "Record", "Runnable", "RuntimeException", "SafeVarargs", "Short", "String",
      "StringBuilder", "SuppressWarnings", "System", "Thread", "Throwable",
      "UnsupportedOperationException", "Void"]),
   ("java.util",
     ["ArrayDeque", "ArrayList", "Arrays", "Collection", "Collections", "Comparator", "Deque",
      "EnumMap", "EnumSet", "HashMap", "HashSet", "Iterator", "LinkedHashMap", "LinkedHashSet",
      "LinkedList", "List", "Locale", "Map", "NavigableMap", "Objects", "Optional", "Queue",
      "Set", "SortedMap", "SortedSet", "TreeMap", "TreeSet", "UUID"]),
   ("java.util.function",
     ["BiConsumer", "BiFunction", "BinaryOperator", "Consumer", "Function", "Predicate",
      "Supplier", "UnaryOperator"]),
   ("java.io",
     ["Closeable", "File", "IOException", "InputStream", "OutputStream", "Reader",
      "Serializable", "UncheckedIOException", "Writer"])]

/-- The well-known classes: the outermost ones and then a nested one. -/
def wellKnown : List ClassName :=
  (wellKnownByPackage.flatMap fun (packageName, names) => names.map fun name => ⟨packageName, [name]⟩) ++
    [⟨"java.util", ["Map", "Entry"]⟩]

end ApiDocs.ClassName
