/-
`FragmentStore/Bundled.lean` -- the fragments that every library starts with, unless
it is told not to.

They are registered under their file names without the extension, so that
`light/lambert.glsl` is included as `light/lambert`.
-/
import GlslCompose.FragmentStore.Basic

set_option autoImplicit false

namespace GlslCompose.FragmentStore

/-- A file that consists of the given lines. -/
def fileOf (lines : List Text) : Text := lines.flatMap fun line => line ++ ['\n']

/-- The bundled files, by name. -/
def bundledFiles : List (Text × Text) := [
  ("color/gamma.glsl", fileOf [
    "#ifndef GAMMA",
    "#define GAMMA 2.2",
    "#endif",
    "",
    "vec3 linearToGamma(vec3 color) \x7b",
    "  return pow(color, vec3(1.0 / GAMMA));",
    "\x7d",
    "",
    "vec3 gammaToLinear(vec3 color) \x7b",
    "  return pow(color, vec3(GAMMA));",
    "\x7d"]),
  ("constants.glsl", fileOf [
    "#define PI 3.141592653589793",
    "#define TWO_PI 6.283185307179586",
    "#define HALF_PI 1.5707963267948966",
    "#define EPSILON 1e-6"]),
  ("light/ambient.glsl", fileOf [
    "struct AmbientLight \x7b",
    "  vec3 color;",
    "  float intensity;",
    "\x7d;",
    "",
    "vec3 computeAmbient(AmbientLight light, vec3 albedo) \x7b",
    "  return light.color * light.intensity * albedo;",
    "\x7d"]),
  ("light/lambert.glsl", fileOf [
    "#include \x22./ambient\x22",
    "#include <math/saturate>",
    "",
    "struct DirectionalLight \x7b",
    "  vec3 color;",
    "  vec3 direction;",
    "  float intensity;",
    "\x7d;",
    "",
    "// Diffuse term of a single directional light.",
    "vec3 computeLambert(DirectionalLight light, vec3 normal, vec3 albedo) \x7b",
    "  float ndotl = saturate(dot(normalize(normal), normalize(-light.direction)));",
    "  return light.color * light.intensity * ndotl * albedo;",
    "\x7d"]),
  ("mat/flat.glsl", fileOf [
    "#include <color/gamma>",
    "",
    "#define MATERIAL_FLAT",
    "",
    "vec4 shadeFlat(vec4 color, float opacity) \x7b",
    "  return vec4(linearToGamma(color.rgb), color.a * opacity);",
    "\x7d"]),
  ("math/saturate.glsl", fileOf [
    "float saturate(float x) \x7b",
    "  return clamp(x, 0.0, 1.0);",
    "\x7d",
    "",
    "vec3 saturate(vec3 v) \x7b",
    "  return clamp(v, vec3(0.0), vec3(1.0));",
    "\x7d"]),
  ("math/transform.glsl", fileOf [
    "/* Transforms between object, world and clip space. */",
    "vec4 toClipSpace(mat4 projection, mat4 view, mat4 model, vec3 position) \x7b",
    "  return projection * view * model * vec4(position, 1.0);",
    "\x7d",
    "",
    "vec3 toWorldNormal(mat4 model, vec3 normal) \x7b",
    "  return normalize(mat3(model) * normal);",
    "\x7d"]),
  ("mesh/vertex.glsl", fileOf [
    "#include <math/transform>",
    "",
    "uniform mat4 projection;",
    "uniform mat4 view;",
    "uniform mat4 model;",
    "",
    "attribute vec3 position;",
    "attribute vec3 normal;",
    "attribute vec2 uv;",
    "",
    "varying vec3 vNormal;",
    "varying vec2 vUv;"])]

/-- Registers the bundled fragments. -/
def loadBundled (store : FragmentStore) : Step FragmentStore Unit :=
  store.load (bundledFiles.map fun (name, source) => (.text name, .text source)) .bundle []
    (.among [.text ".glsl"])

end GlslCompose.FragmentStore
