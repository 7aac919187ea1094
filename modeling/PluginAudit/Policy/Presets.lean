import PluginAudit.Value
import PluginAudit.Table

namespace PluginAudit.Policy

def executionFunctions : List String :=
  ["eval", "assert", "exec", "shell_exec", "passthru", "system", "proc_open", "popen", "dl",
    "create_function", "unserialize", "register_shutdown_function", "set_error_handler",
    "set_exception_handler", "register_tick_function", "putenv", "ini_set", "ini_restore"]

def fileFunctions : List String :=
  ["fopen", "fread", "file_get_contents", "file", "fgets", "fgetc", "fgetcsv", "readfile",
    "stream_get_contents", "stream_get_line", "file_exists", "is_readable", "stat", "lstat",
    "scandir", "opendir", "readdir", "parse_ini_file", "parse_ini_string", "glob", "realpath",
    "fwrite", "file_put_contents", "fputcsv", "fflush", "ftruncate", "flock", "rename", "touch",
    "chmod", "chown", "chgrp", "move_uploaded_file", "stream_set_write_buffer", "tempnam",
    "tmpfile", "mkdir", "rmdir", "copy", "unlink", "symlink", "link"]

def streamFunctions : List String :=
  ["stream_context_create", "stream_context_set_option", "stream_context_get_options",
    "stream_context_set_params", "stream_copy_to_stream", "stream_filter_append",
    "stream_filter_prepend", "stream_filter_remove", "stream_get_contents", "stream_get_line",
    "stream_get_meta_data", "stream_get_transports", "stream_get_wrappers", "stream_is_local",
    "stream_register_wrapper", "stream_resolve_include_path", "stream_select",
    "stream_set_blocking", "stream_set_chunk_size", "stream_set_read_buffer",
    "stream_set_timeout", "stream_socket_accept", "stream_socket_client",
    "stream_socket_enable_crypto", "stream_socket_get_name", "stream_socket_pair",
    "stream_socket_recvfrom", "stream_socket_sendto", "stream_socket_server",
    "stream_wrapper_register", "stream_wrapper_restore", "stream_wrapper_unregister"]

def curlFunctions : List String :=
  ["curl_close", "curl_copy_handle", "curl_errno", "curl_error", "curl_escape", "curl_exec",
    "curl_getinfo", "curl_init", "curl_multi_add_handle", "curl_multi_close", "curl_multi_errno",
    "curl_multi_exec", "curl_multi_getcontent", "curl_multi_info_read", "curl_multi_init",
    "curl_multi_remove_handle", "curl_multi_select", "curl_multi_setopt", "curl_multi_strerror",
    "curl_pause", "curl_reset", "curl_setopt", "curl_setopt_array", "curl_share_close",
    "curl_share_errno", "curl_share_init", "curl_share_init_persistent", "curl_share_setopt",
    "curl_share_strerror", "curl_unescape", "curl_upkeep", "curl_version"]

def environmentFunctions : List String :=
  ["putenv", "getenv", "apache_setenv", "apache_getenv", "ini_set", "ini_alter", "ini_restore",
    "ini_get", "ini_get_all", "ini_parse_quantity", "proc_open", "proc_close", "proc_terminate",
    "proc_get_status", "proc_nice", "pcntl_exec", "pcntl_fork", "pcntl_wait", "pcntl_waitpid",
    "pcntl_signal", "pcntl_alarm", "pcntl_wexitstatus", "pcntl_wifexited", "pcntl_wifsignaled",
    "pcntl_wifstopped", "pcntl_signal_dispatch", "pcntl_get_last_error", "pcntl_errno",
    "set_time_limit", "ignore_user_abort", "fastcgi_finish_request"]

def obfuscatorFunctions : List String :=
  ["base64_decode", "base64_encode", "gzinflate", "gzdeflate", "gzencode", "gzdecode",
    "gzcompress", "gzuncompress", "str_rot13", "rot13", "bin2hex", "hex2bin", "chr", "ord",
    "pack", "unpack", "urlencode", "urldecode", "rawurlencode", "rawurldecode",
    "convert_uuencode", "convert_uudecode", "json_encode", "json_decode", "serialize",
    "unserialize", "strrev", "md5", "sha1", "sha256", "hash", "hash_hmac", "openssl_encrypt",
    "openssl_decrypt", "mcrypt_encrypt", "mcrypt_decrypt", "bzcompress", "bzdecompress",
    "zlib_encode", "zlib_decode", "deflate_add", "inflate_add", "inflate_init", "deflate_init",
    "addslashes", "stripslashes", "quotemeta", "strip_tags"]

def callbackNames : List String :=
  ["array_map", "array_filter", "array_walk", "array_walk_recursive", "usort", "uasort", "uksort",
    "array_reduce", "register_shutdown_function", "set_error_handler", "set_exception_handler",
    "register_tick_function"]

def deniedNamespaces : List String :=
  ["Illuminate\\Routing\\", "Illuminate\\Filesystem\\", "Illuminate\\Support\\Facades\\File",
    "Illuminate\\Support\\Facades\\Storage", "Illuminate\\Contracts\\Filesystem\\",
    "Illuminate\\Http\\UploadedFile", "Symfony\\Component\\HttpFoundation\\File\\",
    "Illuminate\\Support\\Facades\\Route", "Illuminate\\Support\\Facades\\Artisan",
    "Illuminate\\Support\\Facades\\Schema", "Illuminate\\Support\\Facades\\DB",
    "Illuminate\\Database\\"]

/-- Baseline deny lists. -/
def defaultPreset : Value :=
  .object [
    ("name", .text "default"),
    ("description", .text "Baseline deny lists for third-party plugin code"),
    ("functions", .object [
      ("forbidden", .texts executionFunctions),
      ("file_io", .texts fileFunctions),
      ("stream", .texts streamFunctions),
      ("curl", .texts curlFunctions),
      ("environment", .texts environmentFunctions),
      ("obfuscators", .texts obfuscatorFunctions),
      ("callbacks", .texts callbackNames),
      ("dangerous", .list []),
      ("tokens", .list [])]),
    ("reflection_prefix", .text "Reflection"),
    ("magic_methods", .texts ["__call", "__callStatic", "__invoke", "__autoload"]),
    ("wrappers", .texts ["php://", "data://", "glob://", "zip://", "phar://"]),
    ("namespaces", .texts deniedNamespaces),
    ("packages", .list []),
    ("allowed_class_methods", .map []),
    ("scan", .object [
      ("php_extensions", .texts ["php", "phtml", "phpt"]),
      ("scan_size", .map []),
      ("max_web_file_bytes", .int 262144),
      ("strict_ignore_blocks_payload", .bool false),
      ("short_open_tags", .bool false),
      ("emit_pre_flags", .bool true),
      ("include_non_php", .bool false),
      ("ignore", .list [])])]

/-- The baseline with ignores that respect payloads, and packages that give access to a shell. -/
def strictPreset : Value :=
  .object [
    ("name", .text "strict"),
    ("description",
      .text "Default deny lists plus payload-aware ignores and shell-access packages"),
    ("inherit", .texts ["preset:default"]),
    ("functions", .object [
      ("dangerous", .texts ["mail", "header", "setcookie"]),
      ("tokens", .texts ["phpinfo", "get_defined_vars", "debug_backtrace"])]),
    ("packages", .texts ["symfony/process", "phpseclib/phpseclib", "league/flysystem"]),
    ("allowed_class_methods", .object [
      ("Illuminate\\Support\\Facades\\Cache", .texts ["get", "put", "has", "forget"])]),
    ("scan", .object [
      ("short_open_tags", .bool true),
      ("strict_ignore_blocks_payload", .bool true)])]

def presets : Table Value :=
  [("default", defaultPreset), ("strict", strictPreset)]

end PluginAudit.Policy
