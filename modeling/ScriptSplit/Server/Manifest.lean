import ScriptSplit.Format.Json.Writer

/-!
# The manifest of the server

* `publishedVersion`: the version under which a build is published.
* `manifestText`: the manifest that a registry reads.
-/

namespace ScriptSplit

/-- The version without a leading letter; a build without a clean tag is published as `0.0.0`. -/
def publishedVersion (version : String) : String :=
  let v := match version.toList with
    | 'v' :: r => String.ofList r
    | cs => String.ofList cs
  if v = "" || v = "dev" || (v.splitOn "-dirty").length > 1 then "0.0.0" else v

/-- The manifest. -/
def manifestJson (version : String) : Json :=
  let v := publishedVersion version
  .object
    [("$schema", .string "https://static.modelcontextprotocol.io/schemas/2025-10-17/server.schema.json"),
     ("name", .string "io.github.panbanda/modsplit"),
     ("description", .string
       "Function dependency analysis and module split suggestions for JavaScript and HTML"),
     ("version", .string v),
     ("repository", .object [("url", .string "https://github.com/panbanda/modsplit"),
       ("source", .string "github")]),
     ("packages", .array [.object
       [("registryType", .string "oci"),
        ("identifier", .string ("ghcr.io/panbanda/modsplit:" ++ v)),
        ("packageArguments", .array [.object [("type", .string "positional"), ("value", .string "mcp")]]),
        ("transport", .object [("type", .string "stdio")])]])]

/-- The text of the manifest. -/
def manifestText (version : String) : String := (manifestJson version).pretty

end ScriptSplit
