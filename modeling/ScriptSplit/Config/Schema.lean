/-!
# The schema of settings files

* `schemaText`: the JSON Schema that editors and other tools read. The checks themselves are those of
  `settingsShape`.
-/

namespace ScriptSplit

/-- The JSON Schema of settings files. -/
def schemaText : String :=
  "\n".intercalate
    ["\x7b",
     "  \x22$schema\x22: \x22https://json-schema.org/draft/2020-12/schema\x22,",
     "  \x22title\x22: \x22modsplit configuration\x22,",
     "  \x22type\x22: \x22object\x22,",
     "  \x22additionalProperties\x22: false,",
     "  \x22$defs\x22: \x7b",
     "    \x22stringList\x22: \x7b",
     "      \x22type\x22: \x22array\x22,",
     "      \x22items\x22: \x7b \x22type\x22: \x22string\x22 \x7d",
     "    \x7d",
     "  \x7d,",
     "  \x22properties\x22: \x7b",
     "    \x22thresholds\x22: \x7b",
     "      \x22type\x22: \x22object\x22,",
     "      \x22additionalProperties\x22: false,",
     "      \x22properties\x22: \x7b",
     "        \x22dependency_count\x22: \x7b \x22type\x22: \x22integer\x22, \x22minimum\x22: 0 \x7d,",
     "        \x22dependent_count\x22: \x7b \x22type\x22: \x22integer\x22, \x22minimum\x22: 0 \x7d,",
     "        \x22complexity\x22: \x7b \x22type\x22: \x22integer\x22, \x22minimum\x22: 0 \x7d",
     "      \x7d",
     "    \x7d,",
     "    \x22symbols\x22: \x7b",
     "      \x22type\x22: \x22object\x22,",
     "      \x22additionalProperties\x22: false,",
     "      \x22properties\x22: \x7b",
     "        \x22globals\x22: \x7b \x22$ref\x22: \x22#/$defs/stringList\x22 \x7d,",
     "        \x22platform_api\x22: \x7b \x22$ref\x22: \x22#/$defs/stringList\x22 \x7d",
     "      \x7d",
     "    \x7d,",
     "    \x22modules\x22: \x7b",
     "      \x22type\x22: \x22array\x22,",
     "      \x22items\x22: \x7b",
     "        \x22type\x22: \x22object\x22,",
     "        \x22additionalProperties\x22: false,",
     "        \x22required\x22: [\x22tag\x22, \x22keywords\x22],",
     "        \x22properties\x22: \x7b",
     "          \x22tag\x22: \x7b \x22type\x22: \x22string\x22, \x22minLength\x22: 1 \x7d,",
     "          \x22keywords\x22: \x7b \x22$ref\x22: \x22#/$defs/stringList\x22 \x7d",
     "        \x7d",
     "      \x7d",
     "    \x7d,",
     "    \x22classification\x22: \x7b",
     "      \x22type\x22: \x22object\x22,",
     "      \x22additionalProperties\x22: false,",
     "      \x22properties\x22: \x7b",
     "        \x22default_module\x22: \x7b \x22type\x22: \x22string\x22, \x22minLength\x22: 1 \x7d,",
     "        \x22fallback_policy\x22: \x7b \x22enum\x22: [\x22default-bucket\x22, \x22inherit-from-dependency\x22] \x7d",
     "      \x7d",
     "    \x7d,",
     "    \x22scan\x22: \x7b",
     "      \x22type\x22: \x22object\x22,",
     "      \x22additionalProperties\x22: false,",
     "      \x22properties\x22: \x7b",
     "        \x22extensions\x22: \x7b \x22$ref\x22: \x22#/$defs/stringList\x22 \x7d,",
     "        \x22include\x22: \x7b \x22$ref\x22: \x22#/$defs/stringList\x22 \x7d,",
     "        \x22max_file_size\x22: \x7b \x22type\x22: \x22integer\x22, \x22minimum\x22: 0 \x7d,",
     "        \x22workers\x22: \x7b \x22type\x22: \x22integer\x22, \x22minimum\x22: 0 \x7d",
     "      \x7d",
     "    \x7d,",
     "    \x22exclude\x22: \x7b",
     "      \x22type\x22: \x22object\x22,",
     "      \x22additionalProperties\x22: false,",
     "      \x22properties\x22: \x7b",
     "        \x22dirs\x22: \x7b \x22$ref\x22: \x22#/$defs/stringList\x22 \x7d,",
     "        \x22patterns\x22: \x7b \x22$ref\x22: \x22#/$defs/stringList\x22 \x7d,",
     "        \x22gitignore\x22: \x7b \x22type\x22: \x22boolean\x22 \x7d",
     "      \x7d",
     "    \x7d,",
     "    \x22cache\x22: \x7b",
     "      \x22type\x22: \x22object\x22,",
     "      \x22additionalProperties\x22: false,",
     "      \x22properties\x22: \x7b",
     "        \x22enabled\x22: \x7b \x22type\x22: \x22boolean\x22 \x7d,",
     "        \x22dir\x22: \x7b \x22type\x22: \x22string\x22 \x7d,",
     "        \x22ttl\x22: \x7b \x22type\x22: \x22integer\x22, \x22minimum\x22: 0 \x7d",
     "      \x7d",
     "    \x7d,",
     "    \x22output\x22: \x7b",
     "      \x22type\x22: \x22object\x22,",
     "      \x22additionalProperties\x22: false,",
     "      \x22properties\x22: \x7b",
     "        \x22format\x22: \x7b \x22enum\x22: [\x22text\x22, \x22json\x22, \x22markdown\x22, \x22toon\x22, \x22yaml\x22] \x7d,",
     "        \x22color\x22: \x7b \x22type\x22: \x22boolean\x22 \x7d",
     "      \x7d",
     "    \x7d",
     "  \x7d",
     "\x7d",
     ""]

end ScriptSplit
