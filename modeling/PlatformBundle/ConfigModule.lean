import PlatformBundle.BundleConfig
import PlatformBundle.Text.Template
/-!
The configuration module that the bundling tool loads. It is a fixed text with four slots, each of
which holds JSON: the entries, the output, the shared chunk and the resolution. No value can leave
its slot, because written JSON ends where it ends and every line break in it is between tokens.
-/

namespace PlatformBundle.ConfigModule

def template : String :=
  "// Generated for one platform batch. Changes are overwritten.\n" ++
  "var webpack = require('webpack');\n\n" ++
  "module.exports = \x7b\n" ++
  "    entry: \x7b\x7bentry\x7d\x7d,\n" ++
  "    output: \x7b\x7boutput\x7d\x7d,\n" ++
  "    plugins: [\n" ++
  "        new webpack.optimize.CommonsChunkPlugin(\x7b\x7bshared_chunk\x7d\x7d)\n" ++
  "    ],\n" ++
  "    resolve: \x7b\x7bresolve\x7d\x7d\n" ++
  "\x7d;\n"

def margin : Nat := 4

def indented (value : Json) : String := String.ofList (Text.setIn margin (value.wide 0))

def slotText (config : BundleConfig) : String → String
  | "entry" => indented (Json.ofMap config.entry)
  | "output" => indented config.outputJson
  | "shared_chunk" => (Json.string config.sharedChunk).compactText
  | "resolve" => indented config.resolveJson
  | _ => ""

def render (config : BundleConfig) : String := Text.fill template (slotText config)

end PlatformBundle.ConfigModule
